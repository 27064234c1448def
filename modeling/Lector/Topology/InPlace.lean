import Lector.Foundations.InPlace
import Lector.Topology.Notifications

/-! The updates of a topology as the source runs them, one change after the other with the errors in
between: a failed update changes nothing, and the updates are those of the other modules. -/
namespace Lector.Topology
open Bytes Std SortedMap InPlace TmuxTopology
open TmuxTopology (Kind kinds parseWindowLine parsePaneLine parseBindingLine parseLegacyBinding)

abbrev Update (α : Type) := EStateM TopologyError TmuxTopology α

namespace Update

/-! ## Notifications -/

def requireResync : Update ReconcileOutcome := do
  modify ({ · with needsResync := true })
  return .resyncRequired

def resyncIf (missing : Bool) : Update ReconcileOutcome :=
  if missing then requireResync else return .applied

def sessionChanged (arguments : Bytes) : Update ReconcileOutcome := do
  let (id, name) ← splitFirst arguments
  let id ← parseSessionId id
  let name ← text name "session name"
  let missing := !(← get).sessions.contains id
  modify fun t => { t with sessions := upsert t.sessions id (emptySession id) ({ · with name }) }
  modify ({ · with attachedSession := some id })
  resyncIf missing

def sessionRenamed (arguments : Bytes) : Update ReconcileOutcome := do
  match (← get).attachedSession with
  | none => requireResync
  | some id =>
    let name ← text arguments "session name"
    if (← get).sessions.contains id then
      modify fun t => { t with sessions := t.sessions.modify id ({ · with name }) }
      return .applied
    else requireResync

def sessionWindowChanged (arguments : Bytes) : Update ReconcileOutcome := do
  let (session, window) ← splitFirst arguments
  let sessionId ← parseSessionId session
  let windowId ← parseWindowId (← singleField window)
  let missingSession := !(← get).sessions.contains sessionId
  let missingWindow := !(← get).windows.contains windowId
  modify fun t => { t with
    sessions := upsert t.sessions sessionId (emptySession sessionId)
      ({ · with activeWindow := some windowId }) }
  modify fun t => { t with windows := upsert t.windows windowId (emptyWindow windowId) id }
  resyncIf (missingSession || missingWindow)

def windowRenamed (arguments : Bytes) : Update ReconcileOutcome := do
  let (window, name) ← splitFirst arguments
  let windowId ← parseWindowId window
  let missing := !(← get).windows.contains windowId
  -- an assignment evaluates its right side before it looks up the place on the left
  let name ← text name "window name"
  modify fun t => { t with windows := upsert t.windows windowId (emptyWindow windowId) ({ · with name }) }
  resyncIf missing

def windowPaneChanged (arguments : Bytes) : Update ReconcileOutcome := do
  let (window, pane) ← splitFirst arguments
  let windowId ← parseWindowId window
  let paneId ← parsePaneId (← singleField pane)
  let missingWindow := !(← get).windows.contains windowId
  let missingPane := !(← get).panes.contains paneId
  modify fun t => { t with
    windows := upsert t.windows windowId (emptyWindow windowId) ({ · with activePane := some paneId }) }
  modify fun t => { t with panes := upsert t.panes paneId (emptyPane paneId windowId) id }
  resyncIf (missingWindow || missingPane)

def windowAdd (arguments : Bytes) : Update ReconcileOutcome := do
  let windowId ← parseWindowId (← singleField arguments)
  modify fun t => { t with windows := upsert t.windows windowId (emptyWindow windowId) id }
  requireResync

def removePane (id : PaneId) : Update Unit := do
  modify fun t => { t with panes := t.panes.erase id }
  modify fun t => { t with windows := t.windows.map fun _ window => window.deactivate id }

def removeWindow (id : WindowId) : Update Unit := do
  modify fun t => { t with windows := t.windows.erase id }
  modify fun t => { t with panes := retain t.panes fun pane => pane.windowId ≠ id }
  modify fun t => { t with sessions := t.sessions.map fun _ session => session.unlist id }

def closeAttachedWindow (arguments : Bytes) : Update ReconcileOutcome := do
  let windowId ← parseWindowId (← singleField arguments)
  match (← get).attachedSession with
  | none => requireResync
  | some sessionId =>
    modify fun t => { t with sessions := t.sessions.modify sessionId (·.unlist windowId) }
    match (← get).windows[windowId]? with
    | none => return .applied
    | some window =>
      modify fun t => { t with windows := t.windows.insert windowId (window.unlink sessionId) }
      if (window.unlink sessionId).links.isEmpty then
        removeWindow windowId
        return .applied
      else return .applied

def closeUnlinkedWindow (arguments : Bytes) : Update ReconcileOutcome := do
  let windowId ← parseWindowId (← singleField arguments)
  if ((← get).windows[windowId]?).any fun window => !window.links.isEmpty then requireResync
  else
    removeWindow windowId
    return .applied

def applyLayoutChange (arguments : Bytes) : Update ReconcileOutcome := do
  let fields := splitn space 4 arguments
  let windowId ← parseWindowId (← nextField fields[0]?)
  let layout ← text (← nextField fields[1]?) "window layout"
  let visibleLayout ← text (← nextField fields[2]?) "window visible layout"
  let flags ← text (← nextField fields[3]?) "window flags"
  let missing := !(← get).windows.contains windowId
  modify fun t => { t with windows := upsert t.windows windowId (emptyWindow windowId) ({ · with layout }) }
  modify fun t => { t with
    windows := upsert t.windows windowId (emptyWindow windowId) ({ · with visibleLayout }) }
  modify fun t => { t with windows := upsert t.windows windowId (emptyWindow windowId) ({ · with flags }) }
  resyncIf missing

def applyKind (arguments : Bytes) : Kind → Update ReconcileOutcome
  | .sessionsChanged => requireResync
  | .sessionChanged => sessionChanged arguments
  | .sessionRenamed => sessionRenamed arguments
  | .sessionWindowChanged => sessionWindowChanged arguments
  | .windowRenamed => windowRenamed arguments
  | .windowPaneChanged => windowPaneChanged arguments
  | .windowAdd => windowAdd arguments
  | .windowClose => closeAttachedWindow arguments
  | .unlinkedWindowClose => closeUnlinkedWindow arguments
  | .layoutChange => do
    let _ ← applyLayoutChange arguments
    requireResync
  | .paneModeChanged => requireResync
  | .paneExited => do
    let paneId ← parsePaneId (← singleField arguments)
    removePane paneId
    return .applied

def applyNotification (name arguments : Bytes) : Update ReconcileOutcome :=
  match kinds.lookup name with
  | none => return .ignored
  | some kind => applyKind arguments kind

/-! ## Nothing fails after the first change -/

theorem sure_requireResync : Sure requireResync := (sure_modify _).bind fun _ => sure_pure _

theorem sure_resyncIf (missing : Bool) : Sure (resyncIf missing) := by
  exact sure_requireResync.ite (sure_pure _)

theorem sure_removePane (id : PaneId) : Sure (removePane id) := (sure_modify _).bind fun _ => sure_modify _

theorem sure_removeWindow (id : WindowId) : Sure (removeWindow id) :=
  (sure_modify _).bind fun _ => (sure_modify _).bind fun _ => sure_modify _

section

variable (arguments : Bytes)
include arguments

theorem atomic_sessionChanged : Atomic (sessionChanged arguments) := by
  refine (reads_lift _).bind_atomic fun ⟨_, _⟩ => (reads_lift _).bind_atomic fun _ =>
    (reads_lift _).bind_atomic fun _ => Sure.atomic ?_
  exact sure_get.bind fun _ => (sure_modify _).bind fun _ => (sure_modify _).bind fun _ => sure_resyncIf _

theorem atomic_sessionRenamed : Atomic (sessionRenamed arguments) := by
  refine reads_get.bind_atomic fun t => ?_
  cases t.attachedSession with
  | none => exact sure_requireResync.atomic
  | some id =>
    refine (reads_lift _).bind_atomic fun _ => Sure.atomic (sure_get.bind fun _ => ?_)
    exact ((sure_modify _).bind fun _ => sure_pure _).ite sure_requireResync

theorem atomic_sessionWindowChanged : Atomic (sessionWindowChanged arguments) := by
  refine (reads_lift _).bind_atomic fun ⟨_, _⟩ => (reads_lift _).bind_atomic fun _ =>
    (reads_lift _).bind_atomic fun _ => (reads_lift _).bind_atomic fun _ => Sure.atomic ?_
  exact sure_get.bind fun _ => sure_get.bind fun _ => (sure_modify _).bind fun _ =>
    (sure_modify _).bind fun _ => sure_resyncIf _

theorem atomic_windowRenamed : Atomic (windowRenamed arguments) := by
  refine (reads_lift _).bind_atomic fun ⟨_, _⟩ => (reads_lift _).bind_atomic fun _ =>
    reads_get.bind_atomic fun _ => (reads_lift _).bind_atomic fun _ => Sure.atomic ?_
  exact (sure_modify _).bind fun _ => sure_resyncIf _

theorem atomic_windowPaneChanged : Atomic (windowPaneChanged arguments) := by
  refine (reads_lift _).bind_atomic fun ⟨_, _⟩ => (reads_lift _).bind_atomic fun _ =>
    (reads_lift _).bind_atomic fun _ => (reads_lift _).bind_atomic fun _ => Sure.atomic ?_
  exact sure_get.bind fun _ => sure_get.bind fun _ => (sure_modify _).bind fun _ =>
    (sure_modify _).bind fun _ => sure_resyncIf _

theorem atomic_windowAdd : Atomic (windowAdd arguments) :=
  (reads_lift _).bind_atomic fun _ => (reads_lift _).bind_atomic fun _ =>
    ((sure_modify _).bind fun _ => sure_requireResync).atomic

theorem atomic_closeAttachedWindow : Atomic (closeAttachedWindow arguments) := by
  refine (reads_lift _).bind_atomic fun _ => (reads_lift _).bind_atomic fun _ =>
    reads_get.bind_atomic fun t => Sure.atomic ?_
  cases t.attachedSession with
  | none => exact sure_requireResync
  | some sessionId =>
    refine (sure_modify _).bind fun _ => sure_get.bind fun t => ?_
    split
    · exact sure_pure _
    · refine (sure_modify _).bind fun _ => Sure.ite ?_ (sure_pure _)
      exact (sure_removeWindow _).bind fun _ => sure_pure _

theorem atomic_closeUnlinkedWindow : Atomic (closeUnlinkedWindow arguments) := by
  refine (reads_lift _).bind_atomic fun _ => (reads_lift _).bind_atomic fun _ =>
    reads_get.bind_atomic fun _ => (sure_requireResync.ite ?_).atomic
  exact (sure_removeWindow _).bind fun _ => sure_pure _

theorem atomic_applyLayoutChange : Atomic (applyLayoutChange arguments) := by
  refine (reads_lift _).bind_atomic fun _ => (reads_lift _).bind_atomic fun _ =>
    (reads_lift _).bind_atomic fun _ => (reads_lift _).bind_atomic fun _ =>
    (reads_lift _).bind_atomic fun _ => (reads_lift _).bind_atomic fun _ =>
    (reads_lift _).bind_atomic fun _ => (reads_lift _).bind_atomic fun _ => Sure.atomic ?_
  exact sure_get.bind fun _ => (sure_modify _).bind fun _ => (sure_modify _).bind fun _ =>
    (sure_modify _).bind fun _ => sure_resyncIf _

theorem atomic_applyKind (kind : Kind) : Atomic (applyKind arguments kind) := by
  cases kind with
  | sessionsChanged => exact sure_requireResync.atomic
  | sessionChanged => exact atomic_sessionChanged arguments
  | sessionRenamed => exact atomic_sessionRenamed arguments
  | sessionWindowChanged => exact atomic_sessionWindowChanged arguments
  | windowRenamed => exact atomic_windowRenamed arguments
  | windowPaneChanged => exact atomic_windowPaneChanged arguments
  | windowAdd => exact atomic_windowAdd arguments
  | windowClose => exact atomic_closeAttachedWindow arguments
  | unlinkedWindowClose => exact atomic_closeUnlinkedWindow arguments
  | layoutChange => exact (atomic_applyLayoutChange arguments).bind_sure fun _ => sure_requireResync
  | paneModeChanged => exact sure_requireResync.atomic
  | paneExited =>
    refine (reads_lift _).bind_atomic fun _ => (reads_lift _).bind_atomic fun id => Sure.atomic ?_
    exact (sure_removePane id).bind fun _ => sure_pure _

end

theorem atomic_applyNotification (name arguments : Bytes) : Atomic (applyNotification name arguments) := by
  unfold applyNotification
  split
  · exact (sure_pure _).atomic
  · exact atomic_applyKind arguments _

/-! ## The same updates at once -/

theorem exec_requireResync (t : TmuxTopology) :
    exec requireResync t = (t.requireResync.1, .ok t.requireResync.2) := rfl

theorem exec_resyncIf (missing : Bool) (t : TmuxTopology) :
    exec (resyncIf missing) t = ((t.resyncIf missing).1, .ok (t.resyncIf missing).2) := by
  cases missing <;> rfl

section Parsing

variable {α β : Type} {t : TmuxTopology} {r : Except TopologyError α} {f : α → Update ReconcileOutcome}

theorem exec_parse {g : α → Except TopologyError β} {update : β → TmuxTopology × ReconcileOutcome}
    (h : ∀ a, exec (f a) t = t.afterParsing (g a) update) :
    exec (liftM r >>= f) t = t.afterParsing (r >>= g) update := by
  cases r with
  | error e => rfl
  | ok a => exact h a

theorem exec_parse_last {update : α → TmuxTopology × ReconcileOutcome}
    (h : ∀ a, exec (f a) t = ((update a).1, .ok (update a).2)) :
    exec (liftM r >>= f) t = t.afterParsing r update := by
  cases r with
  | error e => rfl
  | ok a => exact h a

end Parsing

section

variable (arguments : Bytes)
include arguments

section

variable (t : TmuxTopology)
include t

theorem exec_sessionChanged : exec (sessionChanged arguments) t = t.applyKind arguments .sessionChanged := by
  refine exec_parse fun ⟨_, _⟩ => exec_parse fun _ => exec_parse fun _ => ?_
  exact exec_resyncIf _ _

theorem exec_sessionRenamed : exec (sessionRenamed arguments) t = t.applyKind arguments .sessionRenamed := by
  obtain ⟨_, _, _, _, _, _, attached, _, _, _, _, _⟩ := t
  cases attached with
  | none => rfl
  | some id =>
    refine exec_parse_last fun name => ?_
    rw [exec_bind_get]
    split <;> rfl

theorem exec_sessionWindowChanged :
    exec (sessionWindowChanged arguments) t = t.applyKind arguments .sessionWindowChanged := by
  refine exec_parse fun ⟨_, _⟩ => exec_parse fun _ => exec_parse fun _ => exec_parse fun _ => ?_
  exact exec_resyncIf _ _

theorem exec_windowRenamed : exec (windowRenamed arguments) t = t.applyKind arguments .windowRenamed := by
  refine exec_parse fun ⟨_, _⟩ => exec_parse fun _ => ?_
  exact exec_parse fun _ => exec_resyncIf _ _

theorem exec_windowPaneChanged :
    exec (windowPaneChanged arguments) t = t.applyKind arguments .windowPaneChanged := by
  refine exec_parse fun ⟨_, _⟩ => exec_parse fun _ => exec_parse fun _ => exec_parse fun _ => ?_
  exact exec_resyncIf _ _

theorem exec_windowAdd : exec (windowAdd arguments) t = t.applyKind arguments .windowAdd :=
  exec_parse fun _ => exec_parse_last fun _ => rfl

theorem exec_closeAttachedWindow :
    exec (closeAttachedWindow arguments) t = t.applyKind arguments .windowClose := by
  obtain ⟨_, _, _, _, windows, _, attached, _, _, _, _, _⟩ := t
  refine exec_parse fun _ => exec_parse_last fun windowId => ?_
  unfold TmuxTopology.closeAttachedWindow
  cases attached with
  | none => rfl
  | some sessionId =>
    simp only [exec_bind_modify, exec_bind_get]
    cases windows[windowId]? with
    | none => rfl
    | some window =>
      simp only [exec_bind_modify]
      split <;> rfl

theorem exec_closeUnlinkedWindow :
    exec (closeUnlinkedWindow arguments) t = t.applyKind arguments .unlinkedWindowClose := by
  refine exec_parse fun _ => exec_parse_last fun windowId => ?_
  rw [exec_bind_get]
  unfold TmuxTopology.closeUnlinkedWindow
  split <;> rfl

theorem exec_layoutChange :
    exec (applyKind arguments .layoutChange) t = t.applyKind arguments .layoutChange := by
  unfold applyKind applyLayoutChange TmuxTopology.applyKind layoutArguments
  simp only [bind_assoc]
  refine exec_parse fun _ => exec_parse fun _ => exec_parse fun _ => exec_parse fun _ =>
    exec_parse fun _ => exec_parse fun _ => exec_parse fun _ => exec_parse fun _ => ?_
  simp only [exec_bind_get, exec_bind_modify, upsert_upsert]
  generalize (!t.windows.contains _) = missing
  cases missing <;> rfl

end

theorem exec_applyKind (kind : Kind) (t : TmuxTopology) :
    exec (applyKind arguments kind) t = t.applyKind arguments kind := by
  cases kind with
  | sessionsChanged => rfl
  | sessionChanged => exact exec_sessionChanged arguments t
  | sessionRenamed => exact exec_sessionRenamed arguments t
  | sessionWindowChanged => exact exec_sessionWindowChanged arguments t
  | windowRenamed => exact exec_windowRenamed arguments t
  | windowPaneChanged => exact exec_windowPaneChanged arguments t
  | windowAdd => exact exec_windowAdd arguments t
  | windowClose => exact exec_closeAttachedWindow arguments t
  | unlinkedWindowClose => exact exec_closeUnlinkedWindow arguments t
  | layoutChange => exact exec_layoutChange arguments t
  | paneModeChanged => rfl
  | paneExited => exact exec_parse fun _ => exec_parse_last fun _ => rfl

end

theorem exec_applyNotification (name arguments : Bytes) (t : TmuxTopology) :
    exec (applyNotification name arguments) t = t.applyNotification name arguments := by
  unfold applyNotification TmuxTopology.applyNotification
  cases kinds.lookup name with
  | none => rfl
  | some kind => exact exec_applyKind arguments kind t

/-! ## Inventories -/

variable (line : Bytes)

def inventorySession : Update Unit := do
  let fields ← splitInventory line 3
  let id ← parseSessionId (fields.getD 1 [])
  let name ← text (fields.getD 2 []) "session name"
  let known := (← get).sessions.contains id
  modify fun t => { t with sessions := t.sessions.insert id { emptySession id with name } }
  if known then throw (.contradictoryInventory "duplicate session id")

def inventoryWindow : Update Unit := do
  let l ← parseWindowLine line
  match (← get).sessions[l.sessionId]? with
  | none => throw (.contradictoryInventory "window references missing session")
  | some session =>
    modify fun t => { t with
      sessions := t.sessions.insert l.sessionId
        { session with windows := session.windows.insert l.index l.windowId } }
    if session.windows.contains l.index then
      throw (.contradictoryInventory "duplicate window index")
    else
      modify fun t => { t with sessions := t.sessions.insert l.sessionId (l.listIn session) }
      let window := ((← get).windows[l.windowId]?).getD l.window
      modify fun t => { t with windows := t.windows.insert l.windowId window }
      if window.name ≠ l.name || window.layout ≠ l.layout || window.visibleLayout ≠ l.visibleLayout then
        throw (.contradictoryInventory "linked window metadata differs")
      else
        modify fun t => { t with windows := t.windows.insert l.windowId (l.link window) }

def inventoryPane : Update Unit := do
  let (pane, active) ← parsePaneLine line
  match (← get).windows[pane.windowId]? with
  | none => throw (.contradictoryInventory "pane references missing window")
  | some window =>
    modify fun t => { t with
      windows := t.windows.insert pane.windowId (TmuxTopology.activate window pane.id active) }
    match (← get).panes[pane.id]? with
    | none => modify fun t => { t with panes := t.panes.insert pane.id pane }
    | some existing =>
      if existing ≠ pane then throw (.contradictoryInventory "linked pane metadata differs")
      else return ()

def inventoryAttached : Update Unit := do
  let hasHost := decide (line.count tab ≥ 2)
  let fields ← splitInventory line (if hasHost then 3 else 2)
  let id ← parseSessionId (fields.getD 1 [])
  let attached := (← get).attachedSession
  modify ({ · with attachedSession := some id })
  if attached.isSome then throw (.contradictoryInventory "multiple attached records")
  else if hasHost then
    let host ← text (fields.getD 2 []) "server host"
    if host.utf8ByteSize > 256 || host.toList.any isControl then throw .malformedInventory
    else modify ({ · with host := if host.isEmpty then none else some host })
  else return ()

def inventoryKeyValue (option : Bool) : Update Unit := do
  let fields ← splitInventory line 3
  if (fields.getD 1 []).isEmpty then throw .malformedInventory
  else
    let key ← text (fields.getD 1 []) "metadata key"
    let value ← text (fields.getD 2 []) "metadata value"
    let t ← get
    let known := if option then t.options else t.clientInfo
    modify fun t =>
      if option then { t with options := t.options.insert key value }
      else { t with clientInfo := t.clientInfo.insert key value }
    if known.contains key then throw (.contradictoryInventory "duplicate metadata key")

def insertBinding (binding : TmuxBinding) : Update Unit := do
  if binding.table = "prefix" then
    let known := (← get).bindings
    modify fun t => { t with bindings := t.bindings.insert binding.key binding }
    if known.contains binding.key then throw (.contradictoryInventory "duplicate key-table binding")
  else
    let known := ((← get).keyTables[binding.table]?).getD ∅
    modify fun t => { t with
      keyTables := t.keyTables.insert binding.table (known.insert binding.key binding) }
    if known.contains binding.key then throw (.contradictoryInventory "duplicate key-table binding")

def applyInventoryLine : Update Unit :=
  match line.head? with
  | some 0x53 => inventorySession line
  | some 0x57 => inventoryWindow line
  | some 0x50 => inventoryPane line
  | some 0x41 => inventoryAttached line
  | some 0x4f => inventoryKeyValue line true
  | some 0x43 => inventoryKeyValue line false
  | some 0x42 => do insertBinding (← parseBindingLine line)
  | some 0x62 => do insertBinding (← parseLegacyBinding line)
  | _ => throw .malformedInventory

def validateInventory : Update Unit := do
  liftM (← get).validateInventory

variable (lines : List Bytes)

def readInventory : Update Unit := do
  lines.forM applyInventoryLine
  validateInventory

/-- The lines change a new topology, which takes the place of the old one at the end. -/
def replaceInventory : Update Unit :=
  replaceBy (fun t => { TmuxTopology.new t.connectionId with label := t.label }) (readInventory lines)

/-! ### The same lines -/

section Parsing

variable {α : Type} {t : TmuxTopology} {r : Except TopologyError α} {f : α → Update Unit}

theorem yield_parse {g : α → Except TopologyError TmuxTopology} (h : ∀ a, yield (f a) t = g a) :
    yield (liftM r >>= f) t = r >>= g := by
  cases r with
  | error e => rfl
  | ok a => exact h a

end Parsing

theorem yield_inventorySession (t : TmuxTopology) :
    yield (inventorySession line) t = t.inventorySession line := by
  refine yield_parse fun fields => yield_parse fun id => yield_parse fun name => ?_
  simp only [yield_bind_get]
  split <;> rfl

theorem yield_inventoryWindow (t : TmuxTopology) : yield (inventoryWindow line) t = t.inventoryWindow line := by
  refine yield_parse fun l => ?_
  simp only [yield_bind_get, linkWindow]
  cases t.sessions[l.sessionId]? with
  | none => rfl
  | some session =>
    simp only [yield_bind_modify]
    split
    · rfl
    simp only [yield_bind_get, yield_bind_modify]
    split
    · rfl
    · rw [yield_modify]
      simp only [insert_insert]

theorem yield_inventoryPane (t : TmuxTopology) : yield (inventoryPane line) t = t.inventoryPane line := by
  refine yield_parse fun ⟨pane, active⟩ => ?_
  simp only [yield_bind_get, addPane]
  cases t.windows[pane.windowId]? with
  | none => rfl
  | some window =>
    simp only [yield_bind_modify, yield_bind_get]
    cases t.panes[pane.id]? with
    | none => rfl
    | some existing =>
      simp only
      split <;> rfl

theorem yield_inventoryAttached (t : TmuxTopology) :
    yield (inventoryAttached line) t = t.inventoryAttached line := by
  refine yield_parse fun fields => yield_parse fun id => ?_
  simp only [yield_bind_get]
  split
  · rfl
  split
  · refine yield_parse fun host => ?_
    split <;> rfl
  · rfl

theorem yield_inventoryKeyValue (option : Bool) (t : TmuxTopology) :
    yield (inventoryKeyValue line option) t = t.inventoryKeyValue line option := by
  refine yield_parse fun fields => ?_
  split
  · rfl
  refine yield_parse fun key => yield_parse fun value => ?_
  simp only [yield_bind_get]
  cases option with
  | true =>
    simp only [if_true]
    split <;> rfl
  | false =>
    simp only [Bool.false_eq_true, if_false]
    split <;> rfl

theorem yield_insertBinding (binding : TmuxBinding) (t : TmuxTopology) :
    yield (insertBinding binding) t = t.insertBinding binding := by
  unfold insertBinding TmuxTopology.insertBinding
  by_cases htable : binding.table = "prefix"
  · rw [if_pos htable]
    simp only [yield_bind_get]
    split <;> rfl
  · rw [if_neg htable]
    simp only [yield_bind_get]
    split <;> rfl

section

variable (t : TmuxTopology)
include t

theorem yield_applyInventoryLine : yield (applyInventoryLine line) t = t.applyInventoryLine line := by
  unfold applyInventoryLine TmuxTopology.applyInventoryLine
  generalize line.head? = kind
  split
  · exact yield_inventorySession line t
  · exact yield_inventoryWindow line t
  · exact yield_inventoryPane line t
  · exact yield_inventoryAttached line t
  · exact yield_inventoryKeyValue line true t
  · exact yield_inventoryKeyValue line false t
  · exact yield_parse fun binding => yield_insertBinding binding t
  · exact yield_parse fun binding => yield_insertBinding binding t
  · simp [*]

theorem yield_validateInventory : yield validateInventory t = (do
      t.validateInventory
      return t) := by
  unfold validateInventory
  rw [yield_bind_get]
  cases t.validateInventory <;> rfl

theorem foldlM_applyInventoryLine :
    lines.foldlM TmuxTopology.applyInventoryLine t = t.applyInventoryLines lines := by
  induction lines generalizing t with
  | nil => rfl
  | cons line lines ih => exact congrArg (t.applyInventoryLine line >>= ·) (funext ih)

theorem yield_readInventory : yield (readInventory lines) t = (do
      let next ← t.applyInventoryLines lines
      next.validateInventory
      return next) := by
  unfold readInventory
  rw [yield_bind, yield_forM yield_applyInventoryLine, foldlM_applyInventoryLine]
  exact congrArg (t.applyInventoryLines lines).bind (funext yield_validateInventory)

theorem exec_replaceInventory : exec (replaceInventory lines) t = t.replaceInventory lines := by
  unfold replaceInventory TmuxTopology.replaceInventory TmuxTopology.readInventory
  rw [exec_replaceBy, yield_readInventory]
  split <;> simp_all

end

/-- **A failed update changes nothing.** An inventory or a notification that is refused leaves the whole
topology as it was, whatever the steps before the error would have changed. -/
theorem unchanged_of_error (t : TmuxTopology) :
    (∀ lines e, (exec (replaceInventory lines) t).2 = .error e → (exec (replaceInventory lines) t).1 = t) ∧
      ∀ name arguments e, (exec (applyNotification name arguments) t).2 = .error e →
        (exec (applyNotification name arguments) t).1 = t :=
  ⟨fun lines => atomic_replaceBy _ (readInventory lines) t,
    fun name arguments => atomic_applyNotification name arguments t⟩

/-- A second attached session is refused after the first one was noted, and a rename without a name is. -/
theorem unchanged_of_error_refused :
    (exec (replaceInventory [ascii "A\t$1", ascii "A\t$2"]) (.new 0)).1 = .new 0 ∧
      (exec (applyNotification (ascii "window-renamed") (ascii "@1")) (.new 0)).1 = .new 0 :=
  ⟨(unchanged_of_error (.new 0)).1 _ (.contradictoryInventory "multiple attached records") (by decide),
    (unchanged_of_error (.new 0)).2 _ _ .malformedNotification (by decide)⟩

end Update

end Lector.Topology
