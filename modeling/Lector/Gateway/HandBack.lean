import Lector.Gateway.Brackets
import Lector.Gateway.Chunking

/-! Bytes that a failed region hands back to the terminal. They are emitted as they are, so they
agree with a fresh router's output unless a start marker begins in them. -/
namespace Lector.Gateway
open Bytes List TmuxGatewayRouter

/-! ## Two lists compared -/

theorem prefix_trichotomy {α : Type} [DecidableEq α] (p y : List α) :
    p <+: y ∨ y <+: p ∨ ∃ q c d more rest, p = q ++ d :: more ∧ y = q ++ c :: rest ∧ c ≠ d := by
  induction p generalizing y with
  | nil => exact .inl nil_prefix
  | cons d p ih =>
    cases y with
    | nil => exact .inr (.inl nil_prefix)
    | cons c y =>
      by_cases hcd : c = d
      · subst hcd
        rcases ih y with h | h | ⟨q, c', d', more, rest, hp, hy, hne⟩
        · exact .inl (cons_prefix_cons.mpr ⟨rfl, h⟩)
        · exact .inr (.inl (cons_prefix_cons.mpr ⟨rfl, h⟩))
        · exact .inr (.inr ⟨c :: q, c', d', more, rest, by rw [hp]; rfl, by rw [hy]; rfl, hne⟩)
      · exact .inr (.inr ⟨[], c, d, p, y, rfl, rfl, hcd⟩)

/-! ## Scanning for the marker -/

def fresh (id : UInt64) : TmuxGatewayRouter := .withFirstConnectionId id

theorem fresh_wellFormed (id : UInt64) : (fresh id).WellFormed id := wellFormed_fresh id

/-- What a fresh router emits for `bytes`, byte by byte. -/
def freshItems (id : UInt64) (bytes : Bytes) : List Item :=
  match TmuxGatewayRouter.pushLoop ⟨fresh id, [], []⟩ bytes with
  | .ok s => s.items
  | .error _ => []

section Scan

variable {id : UInt64}

variable {s s' : PushState} {bytes xs : Bytes}

theorem items_from_fresh (hs : s.router = fresh id) (h : pushLoop s bytes = .ok s') :
    s'.items = s.items ++ freshItems id bytes := by
  have hmirrors : Mirrors s.items s ⟨fresh id, [], []⟩ :=
    ⟨hs, by simp [PushState.items], fun ha => absurd (by rw [hs]; rfl) ha, fun _ => rfl⟩
  have hloop := hmirrors.pushLoop bytes
  rw [h] at hloop
  rw [freshItems]
  cases hright : pushLoop ⟨fresh id, [], []⟩ bytes with
  | error failure => rw [hright] at hloop; exact hloop.elim
  | ok t => rw [hright] at hloop; exact hloop.items

theorem pushLoop_fresh (hid : checkedSucc id ≠ none) (events : List GatewayEvent) (direct : Bytes)
    (bytes : Bytes) : ∃ s', pushLoop ⟨fresh id, events, direct⟩ bytes = .ok s' ∧
      s'.items = PushState.items ⟨fresh id, events, direct⟩ ++ freshItems id bytes := by
  obtain ⟨s', hs'⟩ := pushLoop_total (s := ⟨fresh id, events, direct⟩) hid (fresh_wellFormed id) bytes
  exact ⟨s', hs', items_from_fresh rfl hs'⟩

theorem freshItems_append (h : pushLoop ⟨fresh id, [], []⟩ xs = .ok s) (ys : Bytes)
    (h' : pushLoop s ys = .ok s') : freshItems id (xs ++ ys) = s'.items := by
  rw [freshItems, pushLoop_append, h]
  simp only [h']

theorem freshItems_pass (hid : checkedSucc id ≠ none) {c : UInt8} (hc : c ≠ esc) (rest : Bytes) :
    freshItems id (c :: rest) = directItems [c] ++ freshItems id rest := by
  have hpass : Step ⟨fresh id, [], []⟩ c (.advance ⟨fresh id, [], [c]⟩) := .passed rfl hc rfl
  obtain ⟨s', hloop, hitems⟩ := pushLoop_fresh hid [] [c] rest
  rw [← singleton_append, freshItems_append (s := ⟨fresh id, [], [c]⟩) ?_ rest hloop, hitems]
  · simp [PushState.items]
  · rw [pushLoop, pushByte_advance (iteration_of_step hpass)]
    rfl

theorem freshItems_pass_all (hid : checkedSucc id ≠ none) (hxs : esc ∉ xs)
    (rest : Bytes) : freshItems id (xs ++ rest) = directItems xs ++ freshItems id rest := by
  induction xs with
  | nil => simp
  | cons x xs ih =>
    simp only [mem_cons, not_or] at hxs
    rw [cons_append, freshItems_pass hid (Ne.symm hxs.1), ih hxs.2, ← append_assoc,
      ← directItems_append, singleton_append]

theorem markerPrefix_ext {m n : MarkerPrefix} (h : m.bytes = n.bytes) : m = n := by
  obtain ⟨bytes, isPrefix, short⟩ := m
  cases h
  rfl

theorem pushLoop_markerPrefix (m : MarkerPrefix) : pushLoop ⟨fresh id, [], []⟩ m.bytes =
      .ok ⟨(fresh id).withMarkerPrefix m, [], []⟩ := by
  induction hn : m.bytes.length generalizing m with
  | zero =>
    have hm : m = .empty := markerPrefix_ext (length_eq_zero_iff.mp hn)
    rw [hm]
    rfl
  | succ n ih =>
    have hshort := m.short
    have hlt : n < startMarker.length := by omega
    have htake : m.bytes = startMarker.take n ++ [startMarker[n]] := by
      rw [take_append_getElem hlt, ← hn]
      exact prefix_iff_eq_take.mp m.isPrefix
    let before : MarkerPrefix :=  ⟨startMarker.take n, take_prefix _ _, by rw [length_take]; omega⟩
    have hlen : before.bytes.length = n := by simp [before, hlt.le]
    have hexpected : before.expected = startMarker[n] := by
      simp only [MarkerPrefix.expected, get_eq_getElem, hlen]
    have hextend : before.extend = some m := by
      unfold MarkerPrefix.extend
      have hbytes : before.bytes ++ [before.expected] = m.bytes := by rw [htake, hexpected]
      rw [dif_pos (by rw [hbytes]; exact m.short)]
      exact congrArg some (markerPrefix_ext hbytes)
    have hstep : Step ⟨(fresh id).withMarkerPrefix before, [], []⟩ startMarker[n]
        (.advance ⟨(fresh id).withMarkerPrefix m, [], []⟩) :=
      .matched rfl hexpected.symm m hextend
    rw [htake, pushLoop_append, ih before hlen]
    simp only [pushLoop, pushByte_advance (iteration_of_step hstep)]

theorem freshItems_markerPrefix (m : MarkerPrefix) : freshItems id m.bytes = [] := by
  rw [freshItems, pushLoop_markerPrefix]
  rfl

theorem freshItems_released (hid : checkedSucc id ≠ none) {m : MarkerPrefix} {c : UInt8}
    (hc : c ≠ m.expected) (hm : m.bytes ≠ []) (rest : Bytes) :
    freshItems id (m.bytes ++ c :: rest) = directItems m.bytes ++ freshItems id (c :: rest) := by
  have hrelease : Step ⟨(fresh id).withMarkerPrefix m, [], []⟩ c
      (.reconsider ⟨fresh id, [], m.bytes⟩) := .released rfl hc hm
  obtain ⟨s', hloop, hitems⟩ := pushLoop_fresh hid [] m.bytes (c :: rest)
  have hloop' : pushLoop ⟨(fresh id).withMarkerPrefix m, [], []⟩ (c :: rest) = .ok s' := by
    rw [pushLoop, pushByte_reconsider (iteration_of_step hrelease), ← hloop, pushLoop]
  rw [freshItems_append (pushLoop_markerPrefix m) (c :: rest) hloop', hitems]
  simp [PushState.items]

theorem freshItems_cons (hid : checkedSucc id ≠ none) {x : UInt8} (hcomplete : ¬ startMarker <+: x :: xs)
    (hcut : ¬ x :: xs <+: startMarker) : freshItems id (x :: xs) = directItems [x] ++ freshItems id xs := by
  rcases prefix_trichotomy startMarker (x :: xs) with h | h | ⟨q, c, d, more, rest, hp, hy, hne⟩
  · exact absurd h hcomplete
  · exact absurd h hcut
  have hshort : q.length < startMarker.length := by rw [hp]; simp
  let m : MarkerPrefix := ⟨q, ⟨d :: more, hp.symm⟩, hshort⟩
  have hexpected : m.expected = d := by
    simp [MarkerPrefix.expected, m, hp]
  cases q with
  | nil =>
    obtain ⟨rfl, rfl⟩ := hy
    have hd : d = esc := (cons.inj hp).1.symm
    exact freshItems_pass hid (hd ▸ hne) xs
  | cons e q =>
    rw [cons_append] at hy
    obtain ⟨rfl, rfl⟩ := hy
    -- behind its first byte the marker holds no escape
    have hesc : esc ∉ q := by
      have htail : startMarker.tail = q ++ d :: more := by rw [hp]; rfl
      intro hmem
      have hin : esc ∈ startMarker.tail := by rw [htail]; simp [hmem]
      revert hin
      decide
    have hreleased := freshItems_released hid (m := m) (hexpected ▸ hne) (by simp) rest
    rw [← cons_append, hreleased, freshItems_pass_all hid hesc, ← append_assoc,
      ← directItems_append, singleton_append]

theorem pushLoop_events_prefix (h : pushLoop s bytes = .ok s') : s.events <+: s'.events :=
  pushLoop_induction (P := fun t => s.events <+: t.events)
    (fun _ _ _ ht hb => pushByte_induction (P := fun t => s.events <+: t.events)
      (fun _ _ ht hstep => ht.trans (hstep.events_prefix (.inl rfl)))
      (fun _ _ ht hstep => ht.trans (hstep.events_prefix (.inr rfl))) ht hb)
    prefix_rfl h

theorem freshItems_marker (hid : checkedSucc id ≠ none) (rest : Bytes) :
    ∃ items, freshItems id (startMarker ++ rest) = .inr (.connectionStarted id) :: items := by
  obtain ⟨next, hnext⟩ := Option.ne_none_iff_exists'.mp hid
  let m : MarkerPrefix := ⟨startMarker.take 6, take_prefix _ _, by decide⟩
  have hstep : Step ⟨(fresh id).withMarkerPrefix m, [], []⟩ 0x70
      (.advance ⟨⟨.empty, some (startedControl id), next⟩,
        [.connectionStarted id, .control id .started], []⟩) :=
    .started rfl rfl rfl next hnext
  have hmarker : pushLoop ⟨fresh id, [], []⟩ startMarker =
      .ok ⟨⟨.empty, some (startedControl id), next⟩, [.connectionStarted id, .control id .started], []⟩ := by
    rw [show startMarker = m.bytes ++ [0x70] from rfl, pushLoop_append, pushLoop_markerPrefix m]
    simp only [pushLoop, pushByte_advance (iteration_of_step hstep)]
  obtain ⟨s', hloop⟩ := pushLoop_total hid (pushLoop_wellFormed (fresh_wellFormed id) hmarker) rest
  obtain ⟨more, hmore⟩ := pushLoop_events_prefix hloop
  rw [freshItems_append hmarker rest hloop, PushState.items, ← hmore]
  exact ⟨_, rfl⟩

end Scan

/-! ## What the terminal sees -/

def GatewayEvent.isVisible : GatewayEvent → Bool
  | .directOutput _ | .connectionStarted _ => true
  | _ => false

/-- The terminal's view of an event stream: its output and where connections start in it. -/
def terminalView (events : List GatewayEvent) : List GatewayEvent :=
  coalesce (events.filter GatewayEvent.isVisible)

def Item.isVisible : Item → Bool
  | .inl _ => true
  | .inr event => event.isVisible

theorem visible_directItems (bytes : Bytes) :
    (directItems bytes).filter Item.isVisible = directItems bytes := by
  rw [filter_eq_self]
  intro item hitem
  obtain ⟨-, -, rfl⟩ := mem_map.mp hitem
  rfl

theorem expand_visible (events : List GatewayEvent) :
    directPieces.expand (events.filter GatewayEvent.isVisible) =
      (directPieces.expand events).filter Item.isVisible := by
  induction events with
  | nil => rfl
  | cons e es ih =>
    rw [Coalesce.Pieces.expand_cons, filter_append, ← ih]
    cases e with
    | directOutput bytes =>
      rw [items_directOutput, visible_directItems]
      rfl
    | connectionStarted id => rfl
    | control id event => rfl
    | connectionEnded id => rfl
    | connectionFailed id reason => rfl

theorem terminalView_eq_iff {es fs : List GatewayEvent} (he : directPieces.Solid es)
    (hf : directPieces.Solid fs) : terminalView es = terminalView fs ↔
      (directPieces.expand es).filter Item.isVisible = (directPieces.expand fs).filter Item.isVisible := by
  have hsolid : ∀ {gs : List GatewayEvent}, directPieces.Solid gs →
      directPieces.Solid (gs.filter GatewayEvent.isVisible) :=
    fun h e hmem => h e (mem_of_mem_filter hmem)
  rw [terminalView, terminalView, coalesce, coalesce,
    directPieces.merge_eq_iff (hsolid he) (hsolid hf), expand_visible, expand_visible]

/-- A start marker begins in `h`, complete in `h ++ rest` or cut off by its end. -/
def MarkerBegins (h rest : Bytes) : Prop :=
  ∃ i < h.length, startMarker <+: (h ++ rest).drop i ∨ (h ++ rest).drop i <+: startMarker

instance (h rest : Bytes) : Decidable (MarkerBegins h rest) :=
  inferInstanceAs (Decidable (∃ i < h.length, _ ∨ _))

theorem markerBegins_cons (x : UInt8) (h rest : Bytes) : MarkerBegins (x :: h) rest ↔
      (startMarker <+: x :: (h ++ rest) ∨ x :: (h ++ rest) <+: startMarker) ∨ MarkerBegins h rest := by
  constructor
  · rintro ⟨i, hi, hmarker⟩
    cases i with
    | zero => exact .inl hmarker
    | succ i => exact .inr ⟨i, Nat.lt_of_succ_lt_succ hi, hmarker⟩
  · rintro (hmarker | ⟨i, hi, hmarker⟩)
    · exact ⟨0, Nat.succ_pos _, hmarker⟩
    · exact ⟨i + 1, Nat.succ_lt_succ hi, hmarker⟩

section View

variable {id : UInt64} {h rest : Bytes}

section

variable (hid : checkedSucc id ≠ none)
include hid

theorem freshItems_of_clean (hclean : ¬ MarkerBegins h rest) :
    freshItems id (h ++ rest) = directItems h ++ freshItems id rest := by
  induction h with
  | nil => rfl
  | cons x h ih =>
    rw [markerBegins_cons, not_or, not_or] at hclean
    rw [cons_append, freshItems_cons hid hclean.1.1 hclean.1.2, ih hclean.2,
      ← append_assoc, ← directItems_append, singleton_append]

theorem freshItems_of_marker (hmarker : MarkerBegins h rest) :
    ¬ directItems h <+: (freshItems id (h ++ rest)).filter Item.isVisible := by
  induction h with
  | nil =>
    obtain ⟨i, hi, -⟩ := hmarker
    exact absurd hi (Nat.not_lt_zero i)
  | cons x h ih =>
    by_cases hcomplete : startMarker <+: x :: (h ++ rest)
    · obtain ⟨more, hmore⟩ := hcomplete
      obtain ⟨items, hitems⟩ := freshItems_marker hid more
      rw [cons_append, ← hmore, hitems]
      intro hshows
      have hhead := (cons_prefix_cons.mp hshows).1
      cases hhead
    by_cases hcut : x :: (h ++ rest) <+: startMarker
    · have hshort : (x :: (h ++ rest)).length < startMarker.length := by
        refine lt_of_le_of_ne hcut.length_le fun hlen => hcomplete ?_
        exact (hcut.eq_of_length hlen) ▸ prefix_refl _
      rw [cons_append, freshItems_markerPrefix ⟨x :: (h ++ rest), hcut, hshort⟩]
      intro hshows
      exact absurd (prefix_nil.mp hshows) (by simp [directItems])
    · have hlater : MarkerBegins h rest := by
        rw [markerBegins_cons] at hmarker
        exact hmarker.resolve_left (not_or.mpr ⟨hcomplete, hcut⟩)
      rw [cons_append, freshItems_cons hid hcomplete hcut]
      intro hshows
      exact ih hlater (cons_prefix_cons.mp hshows).2

theorem visible_eq_iff : (directItems h ++ freshItems id rest).filter Item.isVisible =
        (freshItems id (h ++ rest)).filter Item.isVisible ↔ ¬ MarkerBegins h rest := by
  constructor
  · intro heq hmarker
    refine freshItems_of_marker hid hmarker ?_
    rw [← heq, filter_append, visible_directItems]
    exact prefix_append _ _
  · intro hclean
    rw [freshItems_of_clean hid hclean]

end

end View

/-! ## Handing bytes back -/

/-- The bytes that go back to the terminal when `byte` ends the connection abnormally. -/
def handedBack (r : TmuxGatewayRouter) (byte : UInt8) : Option Bytes :=
  match r.active with
  | none => none
  | some a =>
    if a.recovering then none
    else if a.sawExit && !a.terminatorEscapeSeen && byte != esc then some [byte]
    else
      match a.parser.push [byte] with
      | (_, .ok _) => none
      | (parser, .error _) =>
        if returnedToDirectTransport { recordedByte a byte with parser } then
          some (a.currentRecord ++ [byte])
        else none

/-- The failure is reported, and then the terminal sees what a fresh router shows of the rest. -/
def TreatedAsFresh (r : TmuxGatewayRouter) (id : UInt64) (byte : UInt8) (h rest : Bytes) : Prop :=
  ∃ reason tail events, (r.push (byte :: rest)).2 = .ok (.connectionFailed id reason :: tail) ∧
      ((fresh id).push (h ++ rest)).2 = .ok events ∧ terminalView tail = terminalView events

theorem close_eq_fresh {first : UInt64} {r : TmuxGatewayRouter} (hr : r.WellFormed first)
    {a : ActiveControl} (ha : r.active = some a) : r.close a.connectionId = fresh first := by
  have hbare := hr.bare (by simp [ha])
  have hid := (hr.busy a ha).1
  obtain ⟨markerPrefix, active, nextConnectionId⟩ := r
  cases hbare
  rw [hid]
  rfl

theorem pushLoop_handedBack {first : UInt64} {r : TmuxGatewayRouter} (hr : r.WellFormed first)
    {byte : UInt8} {h : Bytes} (hback : handedBack r byte = some h) (rest : Bytes) :
    checkedSucc first ≠ none ∧ ∃ reason s', pushLoop ⟨r, [], []⟩ (byte :: rest) = .ok s' ∧
        [.connectionFailed first reason] <+: s'.events ∧
        s'.items = .inr (.connectionFailed first reason) :: (directItems h ++ freshItems first rest) := by
  unfold handedBack at hback
  split at hback
  · cases hback
  rename_i a ha
  have hid := (hr.busy a ha).2
  refine ⟨hid, ?_⟩
  split at hback
  · cases hback
  rename_i hlive
  have hlive : a.recovering = false := by simpa using hlive
  split at hback
  · rename_i hwait
    cases hback
    have hesc : byte ≠ esc := by
      simp only [Bool.and_eq_true, bne_iff_ne] at hwait
      exact hwait.2
    have hstep := pushByte_reconsider (iteration_of_step (s := ⟨r, [], []⟩) (.missing a ha hlive hwait))
    rw [close_eq_fresh hr ha, (hr.busy a ha).1] at hstep
    obtain ⟨s', hloop, hitems⟩ := pushLoop_fresh hid [.connectionFailed first .missingTerminator]
      [] (byte :: rest)
    have hloop' : pushLoop ⟨r, [], []⟩ (byte :: rest) = .ok s' := by
      rw [pushLoop, hstep, ← hloop]
      rfl
    refine ⟨.missingTerminator, s', hloop', pushLoop_events_prefix hloop, ?_⟩
    rw [hitems, freshItems_pass hid hesc]
    rfl
  · rename_i hwait
    have hwait : (a.sawExit && !a.terminatorEscapeSeen && byte != esc) = false := by
      simpa using hwait
    split at hback
    · cases hback
    rename_i parser source hparse
    split at hback
    · rename_i hreturned
      cases hback
      have hstep := pushByte_advance (iteration_of_step (s := ⟨r, [], []⟩)
        (.handedBack a ⟨ha, hlive, hwait⟩ parser source hparse hreturned))
      rw [close_eq_fresh hr ha, (hr.busy a ha).1] at hstep
      obtain ⟨s', hloop, hitems⟩ := pushLoop_fresh hid
        [.connectionFailed first (failureReason a source)] (a.currentRecord ++ [byte]) rest
      have hloop' : pushLoop ⟨r, [], []⟩ (byte :: rest) = .ok s' := by
        rw [pushLoop, hstep]
        exact hloop
      refine ⟨failureReason a source, s', hloop', pushLoop_events_prefix hloop, ?_⟩
      rw [hitems]
      rfl
    · cases hback

namespace TmuxGatewayRouter

/-- **Bytes handed back are treated as fresh input exactly when no start marker begins in them**, complete or
cut off. The terminal then sees what a fresh router makes of them and the rest. -/
theorem handedBack_treatedAsFresh_iff (first : UInt64) (ops : List Op) (byte : UInt8) (h rest : Bytes)
    (hback : handedBack (runOps (withFirstConnectionId first) ops).1 byte = some h) :
    TreatedAsFresh (runOps (withFirstConnectionId first) ops).1 first byte h rest ↔
      ¬ MarkerBegins h rest := by
  obtain ⟨hid, reason, s, hloop, ⟨tail, htail⟩, hitems⟩ :=
    pushLoop_handedBack (wellFormed_runOps first ops) hback rest
  obtain ⟨t, hfresh, hfreshItems⟩ := pushLoop_fresh hid [] [] (h ++ rest)
  have hpush : (runOps (withFirstConnectionId first) ops).1.push (byte :: rest) =
      (s.router, .ok (.connectionFailed first reason :: emitDirect tail s.direct)) := by
    rw [push, hloop]
    simp only [← htail, emitDirect]
    split <;> rfl
  have hfreshPush : (fresh first).push (h ++ rest) = (t.router, .ok (emitDirect t.events t.direct)) := by
    rw [push, hfresh]
  have hsolid : directPieces.Solid (emitDirect tail s.direct) := fun e he =>
    push_solid hpush e (mem_cons_of_mem _ he)
  have hview : terminalView (emitDirect tail s.direct) =
      terminalView (emitDirect t.events t.direct) ↔ ¬ MarkerBegins h rest := by
    have htailItems : directPieces.expand (emitDirect tail s.direct) =
        directItems h ++ freshItems first rest := by
      rw [expand_emitDirect]
      rw [PushState.items, ← htail] at hitems
      exact (cons.inj hitems).2
    have hotherItems : directPieces.expand (emitDirect t.events t.direct) = freshItems first (h ++ rest) := by
      rw [expand_emitDirect]
      exact hfreshItems
    rw [terminalView_eq_iff hsolid (push_solid hfreshPush), htailItems, hotherItems]
    exact visible_eq_iff hid
  rw [← hview]
  constructor
  · rintro ⟨reason', tail', events, hevents, hother, heq⟩
    rw [hpush] at hevents
    rw [hfreshPush] at hother
    cases hevents
    cases hother
    exact heq
  · intro heq
    exact ⟨reason, _, _, by rw [hpush], by rw [hfreshPush], heq⟩

def exited : Bytes := startMarker ++ ascii "%exit\n"

theorem handedBack_treatedAsFresh_iff_letters :
    TreatedAsFresh (runOps (withFirstConnectionId 1) [.push (exited ++ [esc])]).1 1 0x5b
      [esc, 0x5b] (ascii "31m") :=
  (handedBack_treatedAsFresh_iff 1 [.push (exited ++ [esc])] 0x5b [esc, 0x5b] (ascii "31m")
    (by decide +kernel)).mpr (by decide +kernel)

/-- A new start marker behind the exit record is shown to the user instead of being recognised. -/
theorem marker_after_exit_missed : ¬ ∀ (ops : List Op) (byte : UInt8) (h rest : Bytes),
      handedBack (runOps (withFirstConnectionId 1) ops).1 byte = some h →
        TreatedAsFresh (runOps (withFirstConnectionId 1) ops).1 1 byte h rest := by
  intro hclaim
  obtain ⟨reason, tail, events, hevents, hother, heq⟩ :=
    hclaim [.push (exited ++ [esc])] 0x50 [esc, 0x50] (ascii "1000p") (by decide +kernel)
  have hpush : ((runOps (withFirstConnectionId 1) [.push (exited ++ [esc])]).1.push
      (0x50 :: ascii "1000p")).2 =
        .ok [.connectionFailed 1 .missingTerminator, .directOutput startMarker] := by
    decide +kernel
  have hfresh : ((fresh 1).push ([esc, 0x50] ++ ascii "1000p")).2 =
      .ok [.connectionStarted 1, .control 1 .started] := by
    decide +kernel
  rw [hpush] at hevents
  rw [hfresh] at hother
  cases hevents
  cases hother
  revert heq
  decide +kernel

end TmuxGatewayRouter

end Lector.Gateway
