import Lector.Review.Motions

/-! Repeated finds (`Motion::RepeatFind` in `src/views/review.rs`) against the same find from the cursor. -/
namespace Lector.Review
open Terminal Prod
open Option hiding any_eq_true max mem_map
open List hiding max

/-! ## Counted choices -/

section Choices

variable {α β : Type} [DecidableEq β] (dest : α → Option β) (bad : β) (P : α → Prop)

theorem choices_agree (leads : ∀ a, P a → (dest a).isSome = true)
    (injective : ∀ a b, P a → P b → dest a = dest b → a = b) {found wanted : List α}
    (hfound : ∀ a ∈ found, P a) (nodup : found.Nodup) (hwanted : ∀ a ∈ wanted, P a ∧ dest a ≠ some bad) :
    (∀ n : Nat, ((found[n]?).bind dest).filter (· ≠ bad) = (wanted[n]?).bind dest) ↔
      found = wanted ∨ ∃ last, dest last = some bad ∧ found = wanted ++ [last] := by
  induction found generalizing wanted with
  | nil =>
    cases wanted with
    | nil => simp
    | cons b wanted =>
      constructor
      · intro h
        have hnone : dest b = none := (h 0).symm
        have hsome := leads b (hwanted b (by simp)).1
        rw [hnone] at hsome
        cases hsome
      · rintro (h | ⟨last, -, h⟩) <;> cases h
  | cons a found ih =>
    obtain ⟨ha, hfound⟩ := forall_mem_cons.mp hfound
    obtain ⟨-, nodup⟩ := nodup_cons.mp nodup
    cases wanted with
    | nil =>
      constructor
      · intro h
        have hbad : ∀ x, P x → (∃ n : Nat, (a :: found)[n]? = some x) → dest x = some bad := by
          rintro x hx ⟨n, hn⟩
          have hrefused := h n
          obtain ⟨y, hy⟩ := isSome_iff_exists.mp (leads x hx)
          rw [hn, bind_some, hy] at hrefused
          by_contra hne
          rw [hy, some.injEq] at hne
          simp [hne] at hrefused
        have hhead := hbad a ha ⟨0, rfl⟩
        cases found with
        | nil => exact .inr ⟨a, hhead, rfl⟩
        | cons b found =>
          have hb := hfound b (by simp)
          have hnext := hbad b hb ⟨1, rfl⟩
          exact absurd (injective a b ha hb (hhead.trans hnext.symm)) (by grind)
      · rintro (h | ⟨last, hlast, h⟩) n
        · cases h
        · obtain ⟨rfl, rfl⟩ := cons.inj h
          cases n with
          | zero => simp [hlast]
          | succ n => simp
    | cons b wanted =>
      obtain ⟨⟨hb, hgood⟩, hwanted⟩ := forall_mem_cons.mp hwanted
      obtain ⟨d, hd⟩ := isSome_iff_exists.mp (leads b hb)
      have hne : d ≠ bad := fun heq => hgood (heq ▸ hd)
      constructor
      · intro h
        have hsame : a = b := by
          apply injective a b ha hb
          have hzero : (dest a).filter (· ≠ bad) = dest b := h 0
          rw [hd] at hzero ⊢
          exact (filter_eq_some_iff.mp hzero).1
        obtain rfl | ⟨last, hlast, rfl⟩ := (ih hfound nodup hwanted).mp fun n => h (n + 1)
        · exact .inl (by rw [hsame])
        · exact .inr ⟨last, hlast, by rw [hsame, cons_append]⟩
      · intro h n
        have hboth : a = b ∧ (found = wanted ∨ ∃ last, dest last = some bad ∧ found = wanted ++ [last]) := by
          obtain h | ⟨last, hlast, h⟩ := h
          · exact ⟨(cons.inj h).1, .inl (cons.inj h).2⟩
          · exact ⟨(cons.inj h).1, .inr ⟨last, hlast, (cons.inj h).2⟩⟩
        cases n with
        | zero =>
          rw [hboth.1]
          simp [hd, hne]
        | succ n => exact (ih hfound nodup hwanted).mpr hboth.2 n

end Choices

/-! ## The occurrences of a character -/

namespace ReviewDocument

variable (self : ReviewDocument)

def occurrences (position : HistoryPosition) (target : Char) (forward : Bool) : List HistoryPosition :=
  let candidates := (self.lineRows position.row).flatMap fun row => self.columns row 0
  let found := candidates.filter fun candidate =>
    self.cellChar candidate == some target && if forward then position.lt candidate else candidate.lt position
  if forward then found else found.reverse

variable {self} {position start place : HistoryPosition} {target : Char} {forward till : Bool}

theorem mem_occurrences (h : place ∈ self.occurrences position target forward) :
    place ∈ ((self.lineRows position.row).flatMap fun row => self.columns row 0) ∧
      self.cellChar place = some target ∧ (if forward then position.lt place else place.lt position) = true := by
  have hmem : place ∈ ((self.lineRows position.row).flatMap fun row => self.columns row 0).filter
      fun candidate => self.cellChar candidate == some target &&
        if forward then position.lt candidate else candidate.lt position := by
    cases forward with
    | true => exact h
    | false => exact mem_reverse.mp h
  obtain ⟨hcandidate, hmatch⟩ := mem_filter.mp hmem
  rw [Bool.and_eq_true, beq_iff_eq] at hmatch
  exact ⟨hcandidate, hmatch⟩

theorem findCharacter_eq (count : Nat) : self.findCharacter position target forward false count =
      (self.occurrences position target forward)[count - 1]? := by
  change ((self.occurrences position target forward)[count - 1]?).bind
    (fun found => (self.destination found forward false).bind (moved position)) = _
  cases hfound : (self.occurrences position target forward)[count - 1]? with
  | none => rfl
  | some found =>
    obtain ⟨-, -, hbeyond⟩ := mem_occurrences (mem_of_getElem? hfound)
    have hmoved : found ≠ position := by
      rintro rfl
      cases forward <;> simp [lt_iff] at hbeyond
    exact moved_eq_some.mpr ⟨hmoved, rfl⟩

theorem addressable_occurrence (spaced : self.WellSpaced) (h : place ∈ self.occurrences position target forward) :
    self.Addressable place := by
  obtain ⟨hcandidate, hchar, -⟩ := mem_occurrences h
  obtain ⟨row, -, hcolumn⟩ := mem_flatMap.mp hcandidate
  apply addressable_column spaced hcolumn
  intro hempty
  simp [cellChar, hempty] at hchar

theorem columns_sorted (row firstCol : Nat) :
    (self.columns row firstCol).Pairwise fun a b => a.lt b = true := by
  apply pairwise_map.mpr
  refine Pairwise.imp ?_ pairwise_lt_range'
  intro a b hab
  exact lt_iff.mpr (.inr ⟨rfl, hab⟩)

theorem occurrences_sorted : (self.occurrences position target forward).Pairwise fun a b =>
    (if forward then a.lt b else b.lt a) = true := by
  have hcandidates : ((self.lineRows position.row).flatMap fun row => self.columns row 0).Pairwise
      fun a b => a.lt b = true := by
    apply pairwise_flatMap.mpr
    refine ⟨fun row _ => columns_sorted row 0, ?_⟩
    refine Pairwise.imp ?_ pairwise_lt_range'
    intro row other hlt place hrow place' hother
    obtain ⟨-, -, rfl⟩ := mem_map.mp hrow
    obtain ⟨-, -, rfl⟩ := mem_map.mp hother
    exact lt_iff.mpr (.inl hlt)
  have hfound := hcandidates.filter fun candidate => self.cellChar candidate == some target &&
    if forward then position.lt candidate else candidate.lt position
  cases forward with
  | true => exact hfound
  | false => exact pairwise_reverse.mpr hfound

theorem nodup_occurrences : (self.occurrences position target forward).Nodup := by
  apply occurrences_sorted.imp
  rintro a b hlt rfl
  cases forward <;> simp [lt_iff] at hlt

/-! ### Where a find goes -/

theorem index_lt {index other : Nat} (h : self.positions[index]? = some position)
    (h' : self.positions[other]? = some place) (hlt : position.lt place = true) : index < other := by
  obtain ⟨hindex, rfl⟩ := List.getElem?_eq_some_iff.mp h
  obtain ⟨hother, rfl⟩ := List.getElem?_eq_some_iff.mp h'
  by_contra hle
  obtain heq | hbefore := eq_or_lt_of_le (Nat.le_of_not_lt hle)
  · subst heq
    simp [lt_iff] at hlt
  · have hback := pairwise_iff_getElem.mp positions_sorted other index hother hindex hbefore
    rw [lt_iff] at hlt hback
    omega

theorem exists_index (h : self.Addressable position) : ∃ index : Nat, self.positions[index]? = some position :=
  mem_iff_getElem?.mp (mem_positions.mpr h)

theorem destination_isSome (spaced : self.WellSpaced) (hstart : self.Addressable start)
    (h : place ∈ self.occurrences start target forward) :
    (self.destination place forward till).isSome = true := by
  obtain ⟨-, -, hbeyond⟩ := mem_occurrences h
  obtain ⟨first, hfirst⟩ := exists_index hstart
  obtain ⟨index, hindex⟩ := exists_index (addressable_occurrence spaced h)
  cases till with
  | false => rfl
  | true =>
    rw [destination, if_pos rfl, adjacent, idxOf?_eq_some_iff.mpr hindex]
    cases forward with
    | true =>
      have hlt := index_lt hfirst hindex hbeyond
      have hlen := (List.getElem?_eq_some_iff.mp hindex).1
      simp only [bind_eq_bind, bind_some, Bool.not_true, Bool.false_eq_true, if_false]
      rw [if_neg (by omega), getElem?_eq_getElem (by omega)]
      rfl
    | false =>
      have hlt := index_lt hindex hfirst hbeyond
      have hlen := (List.getElem?_eq_some_iff.mp hfirst).1
      simp only [bind_eq_bind, bind_some]
      rw [getElem?_eq_getElem (by omega)]
      rfl

theorem adjacent_eq_some {index : Nat} (hindex : self.positions[index]? = some position) {towards : Bool}
    (h : self.adjacent position towards = some place) :
    ∃ other : Nat, self.positions[other]? = some place ∧ if towards then other = index + 1 else other + 1 = index := by
  rw [adjacent, idxOf?_eq_some_iff.mpr hindex] at h
  simp only [bind_eq_bind, bind_some] at h
  split at h
  · next htowards => exact ⟨index + 1, h, by rw [if_pos htowards]⟩
  · next htowards =>
    split at h
    · cases h
    · exact ⟨index - 1, h, by rw [if_neg htowards]; omega⟩

theorem destination_injective {place other : HistoryPosition} (hplace : self.Addressable place)
    (hother : self.Addressable other) (hsome : (self.destination place forward till).isSome = true)
    (h : self.destination place forward till = self.destination other forward till) : place = other := by
  obtain ⟨reached, hreached⟩ := isSome_iff_exists.mp hsome
  rw [hreached] at h
  cases till with
  | false => exact (some.inj hreached).trans (some.inj h)
  | true =>
    obtain ⟨i, hi⟩ := exists_index hplace
    obtain ⟨j, hj⟩ := exists_index hother
    obtain ⟨i', hi', hnext⟩ := adjacent_eq_some hi hreached
    obtain ⟨j', hj', hnext'⟩ := adjacent_eq_some hj h.symm
    have hsame : i' = j' := some.inj ((idxOf?_eq_some_iff.mpr hi').symm.trans (idxOf?_eq_some_iff.mpr hj'))
    have hindex : i = j := by
      split at hnext <;> simp_all
    rw [hindex, hj] at hi
    exact (some.inj hi).symm

/-! ### The occurrence that the cursor is next to -/

/-- The occurrences that are not skipped: those that a find from the position moves for. -/
def ahead (document : ReviewDocument) (position : HistoryPosition) (target : Char) (forward till : Bool) :
    List HistoryPosition :=
  (document.occurrences position target forward).filter fun found =>
    document.destination found forward till ≠ some position

theorem mem_ahead (h : place ∈ self.ahead position target forward till) :
    place ∈ self.occurrences position target forward ∧ self.destination place forward till ≠ some position := by
  obtain ⟨hmem, hne⟩ := mem_filter.mp h
  exact ⟨hmem, of_decide_eq_true hne⟩

theorem nearest_of_destination (spaced : self.WellSpaced) (hposition : self.Addressable position)
    (h : place ∈ self.occurrences position target forward)
    (hback : self.destination place forward till = some position) :
    ∃ rest, self.occurrences position target forward = place :: rest := by
  obtain ⟨-, -, hbeyond⟩ := mem_occurrences h
  cases till with
  | false =>
    obtain rfl : place = position := some.inj hback
    cases forward <;> simp [lt_iff] at hbeyond
  | true =>
    obtain ⟨index, hindex⟩ := exists_index (addressable_occurrence spaced h)
    obtain ⟨here, hhere, hnext⟩ := adjacent_eq_some hindex hback
    cases hlist : self.occurrences position target forward with
    | nil =>
      rw [hlist] at h
      cases h
    | cons nearest rest =>
      obtain rfl | hrest := mem_cons.mp (hlist ▸ h)
      · exact ⟨rest, rfl⟩
      · exfalso
        have hnearest : nearest ∈ self.occurrences position target forward := by rw [hlist]; simp
        have hsorted := @occurrences_sorted self position target forward
        rw [hlist] at hsorted
        have hfarther := (pairwise_cons.mp hsorted).1 place hrest
        obtain ⟨-, -, hnear⟩ := mem_occurrences hnearest
        obtain ⟨between, hbetween⟩ := exists_index (addressable_occurrence spaced hnearest)
        cases forward with
        | true =>
          have hlow := index_lt hhere hbetween hnear
          have hhigh := index_lt hbetween hindex hfarther
          simp only [Bool.not_true, Bool.false_eq_true, if_false] at hnext
          omega
        | false =>
          have hlow := index_lt hindex hbetween hfarther
          have hhigh := index_lt hbetween hhere hnear
          simp only [Bool.not_false, if_true] at hnext
          omega

theorem occurrences_eq_ahead (spaced : self.WellSpaced) (hposition : self.Addressable position) :
    (if (self.occurrences position target forward).any
        fun found => self.destination found forward till = some position
      then ∃ skipped, self.occurrences position target forward =
        skipped :: self.ahead position target forward till
      else self.occurrences position target forward = self.ahead position target forward till) := by
  split
  · next hany =>
    obtain ⟨skipped, hmem, hback⟩ := any_eq_true.mp hany
    have hback := of_decide_eq_true hback
    obtain ⟨rest, hlist⟩ := nearest_of_destination spaced hposition hmem hback
    refine ⟨skipped, ?_⟩
    have hnodup := @nodup_occurrences self position target forward
    rw [ahead, hlist]
    rw [hlist, nodup_cons] at hnodup
    rw [filter_cons_of_neg (by simp [hback]), filter_eq_self.mpr]
    intro other hother
    rw [decide_eq_true_eq]
    intro hsame
    have hotherMem : other ∈ self.occurrences position target forward := by
      rw [hlist]
      exact mem_cons_of_mem _ hother
    have heq : other = skipped :=
      destination_injective (addressable_occurrence spaced hotherMem) (addressable_occurrence spaced hmem)
        (destination_isSome spaced hposition hotherMem) (hsame.trans hback.symm)
    exact hnodup.1 (heq ▸ hother)
  · next hany =>
    symm
    apply filter_eq_self.mpr
    intro other hother
    rw [decide_eq_true_eq]
    intro hsame
    exact hany (any_eq_true.mpr ⟨other, hother, decide_eq_true hsame⟩)

end ReviewDocument

/-! ## Repeats -/

def LastFind.repeatForward (find : LastFind) (reverse : Bool) : Bool := (find.direction == .forward) != reverse

namespace ReviewCursor
open ReviewDocument

variable (isAlphanumeric : Char → Bool) (document : ReviewDocument) (self : ReviewCursor) (find : LastFind)

/-- A motion, of a move or a yank, leaves a find behind, and the cursor goes anywhere. -/
inductive Reached : ReviewCursor → Prop
  | start {cursor : HistoryPosition} (addressable : document.Addressable cursor) : Reached ⟨cursor, none⟩
  | motion {self : ReviewCursor} (reached : Reached self) {motion : Motion} {count : Nat}
      {target : HistoryPosition} {lastFind : Option LastFind}
      (found : self.motionTarget isAlphanumeric document motion count = some (target, lastFind)) :
      Reached { self with lastFind }
  | other {self : ReviewCursor} (reached : Reached self) {cursor : HistoryPosition}
      (addressable : document.Addressable cursor) : Reached { self with cursor }

/-- The same find once more from the cursor, past the target that the cursor is already next to. -/
def reissued (reverse : Bool) (count : Nat) : Option HistoryPosition :=
  let forward := find.repeatForward reverse
  let skips := (document.occurrences self.cursor find.target forward).any
    fun found => document.destination found forward find.till = some self.cursor
  (self.motionTarget isAlphanumeric document
    (.find (if forward then .forward else .backward) find.till find.target)
    (if skips then max count 1 + 1 else count)).map Prod.fst

/-- Counted are the occurrences that a find from the cursor moves for, and at most one next to the
cursor. -/
def CountsAlike (reverse : Bool) : Prop :=
  let forward := find.repeatForward reverse
  let found := document.occurrences (if reverse then self.cursor else find.matched) find.target forward
  let wanted := document.ahead self.cursor find.target forward find.till
  found = wanted ∨
    ∃ last, document.destination last forward find.till = some self.cursor ∧ found = wanted ++ [last]

variable {isAlphanumeric document self find}

theorem addressable_matched (spaced : document.WellSpaced) (h : Reached isAlphanumeric document self)
    (hfind : self.lastFind = some find) : document.Addressable find.matched := by
  induction h generalizing find with
  | start => cases hfind
  | other _ _ ih => exact ih hfind
  | @motion self _ motion count target lastFind found ih =>
    -- a motion that is no find leaves the find as it is
    have hplace : ∀ place : Option HistoryPosition,
        place.map (fun target => (target, self.lastFind)) = some (target, lastFind) →
          document.Addressable find.matched := by
      intro place hplace
      obtain ⟨_, -, hpair⟩ := map_eq_some_iff.mp hplace
      obtain ⟨-, hlast⟩ := Prod.mk.inj hpair
      exact ih (hlast.trans hfind)
    have hmatched : ∀ {start matched destination : HistoryPosition} {target : Char} {forward till : Bool},
        self.findTarget document start target forward till count = some (matched, destination) →
          document.Addressable matched := by
      intro start matched destination target forward till hfound
      obtain ⟨place, hplace, hrest⟩ := bind_eq_some_iff.mp hfound
      obtain ⟨_, -, hmoved⟩ := bind_eq_some_iff.mp hrest
      split at hmoved
      · cases hmoved
      · obtain ⟨rfl, -⟩ := Prod.mk.inj (some.inj hmoved)
        exact addressable_findCharacter spaced hplace
    cases motion with
    | find direction till ch =>
      obtain ⟨⟨matched, destination⟩, hfound, hpair⟩ := map_eq_some_iff.mp found
      obtain ⟨-, rfl⟩ := Prod.mk.inj hpair
      cases hfind
      exact hmatched hfound
    | repeatFind reverse =>
      obtain ⟨earlier, -, hrest⟩ := bind_eq_some_iff.mp found
      obtain ⟨⟨matched, destination⟩, hfound, hpair⟩ := bind_eq_some_iff.mp hrest
      obtain ⟨-, rfl⟩ := Prod.mk.inj (some.inj hpair)
      cases hfind
      exact hmatched hfound
    | _ => exact hplace _ found

theorem addressable_cursor (h : Reached isAlphanumeric document self) : document.Addressable self.cursor := by
  induction h with
  | start addressable => exact addressable
  | other _ addressable _ => exact addressable
  | motion _ _ ih => exact ih

theorem reached_moves (spaced : document.WellSpaced) (h : Reached isAlphanumeric document self)
    (commands : List (Motion × Nat)) :
    Reached isAlphanumeric document (self.moves isAlphanumeric document commands) := by
  induction commands generalizing self with
  | nil => exact h
  | cons command commands ih =>
    apply ih
    show Reached isAlphanumeric document (self.move isAlphanumeric document command.1 command.2)
    unfold move
    split
    · exact h
    · next target lastFind hfound =>
      have hrows : 0 < document.rowCount := Nat.zero_lt_of_lt (addressable_cursor h).row
      exact (h.motion hfound).other (addressable_clamp spaced hrows target)

theorem findTarget_eq (start : HistoryPosition) (target : Char) (forward till : Bool) (count : Nat) :
    (self.findTarget document start target forward till count).map snd =
      (((document.occurrences start target forward)[count - 1]?).bind
        fun found => document.destination found forward till).filter (· ≠ self.cursor) := by
  rw [findTarget, findCharacter_eq]
  cases (document.occurrences start target forward)[count - 1]? with
  | none => rfl
  | some found =>
    simp only [bind_eq_bind, bind_some]
    cases document.destination found forward till with
    | none => rfl
    | some destination =>
      by_cases hsame : destination = self.cursor
      · simp [hsame, Option.filter]
      · simp [hsame, Option.filter]

theorem motionTarget_repeat (hfind : self.lastFind = some find) (reverse : Bool) (count : Nat) :
    (self.motionTarget isAlphanumeric document (.repeatFind reverse) count).map fst =
      (self.findTarget document (if reverse then self.cursor else find.matched) find.target
        (find.repeatForward reverse) find.till count).map snd := by
  simp only [motionTarget, hfind, bind_eq_bind, bind_some, LastFind.repeatForward]
  cases self.findTarget document (if reverse then self.cursor else find.matched) find.target
    ((find.direction == .forward) != reverse) find.till count <;> rfl

theorem reissued_eq (spaced : document.WellSpaced) (hcursor : document.Addressable self.cursor) (reverse : Bool)
    (count : Nat) : self.reissued isAlphanumeric document find reverse count =
      ((document.ahead self.cursor find.target (find.repeatForward reverse) find.till)[count - 1]?).bind
        fun found => document.destination found (find.repeatForward reverse) find.till := by
  generalize hforward : find.repeatForward reverse = forward
  have hdirection : ((if forward then FindDirection.forward else .backward) == .forward) = forward := by
    cases forward <;> rfl
  have hfound : ∀ count, (self.motionTarget isAlphanumeric document
      (.find (if forward then .forward else .backward) find.till find.target) count).map fst =
        (self.findTarget document self.cursor find.target forward find.till count).map snd := by
    intro count
    rw [motionTarget, hdirection, Option.map_map]
    rfl
  have hchosen : ∀ n : Nat, (((document.ahead self.cursor find.target forward find.till)[n]?).bind
      fun found => document.destination found forward find.till).filter (· ≠ self.cursor) =
        ((document.ahead self.cursor find.target forward find.till)[n]?).bind
          fun found => document.destination found forward find.till := by
    intro n
    cases hn : (document.ahead self.cursor find.target forward find.till)[n]? with
    | none => rfl
    | some place =>
      obtain ⟨-, hne⟩ := mem_ahead (mem_of_getElem? hn)
      rw [bind_some]
      cases hplace : document.destination place forward find.till with
      | none => rfl
      | some destination =>
        have hother : destination ≠ self.cursor := fun heq => hne (heq ▸ hplace)
        simp [hother]
  have hahead := @occurrences_eq_ahead document self.cursor find.target forward find.till spaced hcursor
  rw [reissued, hforward, hfound, findTarget_eq]
  split at hahead
  · next hskips =>
    obtain ⟨skipped, hlist⟩ := hahead
    rw [if_pos hskips, hlist, Nat.add_sub_cancel, ← hchosen]
    obtain _ | count := count
    · rfl
    · rw [Nat.max_eq_left (by omega), getElem?_cons_succ, Nat.add_sub_cancel]
  · next hskips => rw [if_neg hskips, hahead, hchosen]

/-- **A repeat does what the find would do from the cursor exactly when it counts the same occurrences.** Only
the repeat in the other direction counts from the cursor. -/
theorem repeatFind_iff {snapshot : TerminalSnapshot}
    (engine : ∀ row ∈ snapshot.scrollback ++ snapshot.rows, Spaced row) (marks : List SemanticMark)
    {captureCols : Nat} (cols_pos : 0 < captureCols) (isAlphanumeric : Char → Bool) (self : ReviewCursor)
    (reached : Reached isAlphanumeric (fromSnapshot snapshot marks captureCols cols_pos) self) (find : LastFind)
    (hfind : self.lastFind = some find) (reverse : Bool) :
    let document := fromSnapshot snapshot marks captureCols cols_pos
    (∀ count, (self.motionTarget isAlphanumeric document (.repeatFind reverse) count).map fst =
      self.reissued isAlphanumeric document find reverse count) ↔ self.CountsAlike document find reverse := by
  intro document
  have hspaced : document.WellSpaced := wellSpaced_fromSnapshot marks cols_pos engine
  have hcursor := addressable_cursor reached
  have hmatched := addressable_matched hspaced reached hfind
  have hfrom : document.Addressable (if reverse then self.cursor else find.matched) := by
    split
    · exact hcursor
    · exact hmatched
  have hahead : ∀ place ∈ document.ahead self.cursor find.target (find.repeatForward reverse) find.till,
      (document.Addressable place ∧
        (document.destination place (find.repeatForward reverse) find.till).isSome = true) ∧
          document.destination place (find.repeatForward reverse) find.till ≠ some self.cursor := by
    intro place hplace
    obtain ⟨hmem, hne⟩ := mem_ahead hplace
    exact ⟨⟨addressable_occurrence hspaced hmem, destination_isSome hspaced hcursor hmem⟩, hne⟩
  have hchoices := choices_agree
    (fun found => document.destination found (find.repeatForward reverse) find.till) self.cursor
    (fun place => document.Addressable place ∧
      (document.destination place (find.repeatForward reverse) find.till).isSome = true)
    (fun _ h => h.2) (fun a b ha hb h => destination_injective ha.1 hb.1 ha.2 h)
    (fun a ha => ⟨addressable_occurrence hspaced ha, destination_isSome hspaced hfrom ha⟩)
    (@nodup_occurrences document (if reverse then self.cursor else find.matched) find.target
      (find.repeatForward reverse)) hahead
  rw [CountsAlike, ← hchoices]
  simp only [motionTarget_repeat hfind, findTarget_eq, reissued_eq hspaced hcursor]
  constructor
  · intro h n
    exact h (n + 1)
  · intro h count
    exact h (count - 1)

/-! ### A line start after a find -/

/-- `axbxcx` on one row. -/
def crossedDocument : ReviewDocument := fromSnapshot (screenOf [printedRow "axbxcx" false]) [] 6 (by decide)

/-- `fx` and then `0`. -/
def backAtStart : ReviewCursor :=
  moves Char.isAlphanum crossedDocument ⟨⟨0, 0⟩, none⟩ [(.find .forward false 'x', 1), (.lineStart, 1)]

theorem spaced_printedRow (text : String) (wrapped : Bool) : Spaced (printedRow text wrapped) := by
  intro col cell hcell hspacer
  simp only [printedRow, getElem?_map, map_eq_some_iff] at hcell
  obtain ⟨ch, -, rfl⟩ := hcell
  cases hspacer

theorem reached_backAtStart : Reached Char.isAlphanum crossedDocument backAtStart :=
  reached_moves (wellSpaced_fromSnapshot [] (by decide) (by simpa [screenOf] using spaced_printedRow _ _))
    (.start ⟨by decide, by decide, by decide⟩) _

/-- `fx` and `$`, and the repeat goes back over the two occurrences left of the last one. -/
theorem repeatFind_backFromEnd : let find : LastFind := ⟨.forward, false, 'x', ⟨0, 1⟩⟩
    let atEnd := moves Char.isAlphanum crossedDocument ⟨⟨0, 0⟩, none⟩ [(.find .forward false 'x', 1), (.lineEnd, 1)]
    atEnd.cursor = ⟨0, 5⟩ ∧
      (atEnd.motionTarget Char.isAlphanum crossedDocument (.repeatFind true) 2).map fst = some ⟨0, 1⟩ ∧
      ∀ count, (atEnd.motionTarget Char.isAlphanum crossedDocument (.repeatFind true) count).map fst =
        atEnd.reissued Char.isAlphanum crossedDocument find true count :=
  ⟨by decide, by decide, (repeatFind_iff (by simpa [screenOf] using spaced_printedRow "axbxcx" false) []
    (by decide) Char.isAlphanum _ (reached_moves (wellSpaced_fromSnapshot [] (by decide)
      (by simpa [screenOf] using spaced_printedRow _ _)) (.start ⟨by decide, by decide, by decide⟩) _)
    ⟨.forward, false, 'x', ⟨0, 1⟩⟩ (by decide) true).mpr (.inl (by decide))⟩

/-- The repeat goes on from the match, over two occurrences after the cursor. -/
theorem repeat_passes_occurrences : let find : LastFind := ⟨.forward, false, 'x', ⟨0, 1⟩⟩
    Reached Char.isAlphanum crossedDocument backAtStart ∧ backAtStart = ⟨⟨0, 0⟩, some find⟩ ∧
      (backAtStart.motionTarget Char.isAlphanum crossedDocument (.repeatFind false) 1).map fst = some ⟨0, 3⟩ ∧
      backAtStart.reissued Char.isAlphanum crossedDocument find false 1 = some ⟨0, 1⟩ :=
  ⟨reached_backAtStart, by decide, by decide, by decide⟩

end ReviewCursor
end Lector.Review
