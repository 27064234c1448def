import Lector.Lifecycle.Hierarchy

/-! Connections form a bounded forest, and a removal takes whole subtrees, bottom up. -/
namespace Lector.Lifecycle
open List hiding insert
open Std SortedMap Descent Relation ExtTreeMap

namespace ConnectionHierarchy

variable {h h' : ConnectionHierarchy} {id parent root : UInt64}

/-! ## Parents -/

/-- The transport of `id` is a pane of `parent`. -/
def Parent (h : ConnectionHierarchy) (id parent : UInt64) : Prop :=
  ∃ s w p, h.origin id = some (.pane parent s w p)

/-- `id` is the `d`th connection on the way down from a direct one. -/
inductive Depth (h : ConnectionHierarchy) : UInt64 → Nat → Prop
  | direct {id : UInt64} : h.origin id = some .direct → Depth h id 1
  | pane {id parent : UInt64} {d : Nat} : h.Parent id parent → Depth h parent d → Depth h id (d + 1)

/-- Strictly below, through any number of panes. -/
abbrev Below (h : ConnectionHierarchy) (id root : UInt64) : Prop := TransGen h.Parent id root

abbrev AtOrBelow (h : ConnectionHierarchy) (id root : UInt64) : Prop := ReflTransGen h.Parent id root

/-- Every transport is a pane of a connection that exists, and both bounds hold. -/
structure Forest (h : ConnectionHierarchy) : Prop where
  parents : ∀ id parent, h.Parent id parent → h.contains parent
  depth : ∀ id, h.contains id → ∃ d, h.Depth id d ∧ d ≤ maxConnectionDepth
  size : h.len ≤ maxConnections

theorem contains_iff_origin : h.contains id = true ↔ ∃ origin, h.origin id = some origin := contains_iff

theorem Parent.contains (hparent : h.Parent id parent) : h.contains id := by
  obtain ⟨s, w, p, horigin⟩ := hparent
  exact contains_iff_origin.mpr ⟨_, horigin⟩

theorem Forest.contains_root (forest : h.Forest) (hid : h.contains id) (hbelow : h.AtOrBelow id root) :
    h.contains root := by
  rcases ReflTransGen.cases_tail hbelow with rfl | ⟨_, -, hparent⟩
  · exact hid
  · exact forest.parents _ _ hparent

theorem Parent.unique {parent' : UInt64} (hparent : h.Parent id parent)
    (hparent' : h.Parent id parent') : parent = parent' := by
  obtain ⟨s, w, p, horigin⟩ := hparent
  obtain ⟨s', w', p', horigin'⟩ := hparent'
  rw [horigin] at horigin'
  cases horigin'
  rfl

theorem Depth.unique {d d' : Nat} (hd : h.Depth id d) (hd' : h.Depth id d') : d = d' := by
  induction hd generalizing d' with
  | direct horigin =>
    cases hd' with
    | direct => rfl
    | pane hparent _ =>
      obtain ⟨s, w, p, hpane⟩ := hparent
      rw [horigin] at hpane
      cases hpane
  | pane hparent _ ih =>
    cases hd' with
    | direct horigin =>
      obtain ⟨s, w, p, hpane⟩ := hparent
      rw [horigin] at hpane
      cases hpane
    | pane hparent' hdepth =>
      obtain rfl := hparent.unique hparent'
      rw [ih hdepth]

/-! ## Children -/

theorem mem_select {keep : GatewayOrigin → Bool} :
    id ∈ h.select keep ↔ ∃ origin, h.origin id = some origin ∧ keep origin = true := by
  rw [select, mem_map]
  constructor
  · rintro ⟨⟨id', origin⟩, hmem, rfl⟩
    obtain ⟨hlist, hkeep⟩ := mem_filter.mp hmem
    exact ⟨origin, mem_toList_iff_getElem?_eq_some.mp hlist, hkeep⟩
  · rintro ⟨origin, horigin, hkeep⟩
    refine ⟨(id, origin), mem_filter.mpr ⟨?_, hkeep⟩, rfl⟩
    exact mem_toList_iff_getElem?_eq_some.mpr horigin

theorem select_nodup (h : ConnectionHierarchy) (keep : GatewayOrigin → Bool) : (h.select keep).Nodup := by
  have hkeys : h.origins.toList.Pairwise fun a b => a.1 ≠ b.1 := by
    refine distinct_keys_toList.imp fun {a b} hne heq => hne ?_
    rw [heq]
    exact ReflCmp.compare_self
  exact (pairwise_map.mpr (hkeys.sublist filter_sublist))

theorem child_iff : Child h.children id parent ↔ h.Parent id parent := by
  rw [Child, children, mem_select]
  constructor
  · rintro ⟨origin, horigin, hkeep⟩
    cases origin with
    | direct => cases hkeep
    | pane parent' s w p =>
      have hsame : parent' = parent := eq_of_beq hkeep
      exact ⟨s, w, p, hsame ▸ horigin⟩
  · rintro ⟨s, w, p, horigin⟩
    exact ⟨_, horigin, beq_self_eq_true parent⟩

theorem child_eq (h : ConnectionHierarchy) : Child h.children = h.Parent := by
  funext id parent
  exact propext child_iff

theorem children_separate (h : ConnectionHierarchy) : Separate h.children where
  once _ := h.select_nodup _
  parent hp hq := (child_iff.mp hp).unique (child_iff.mp hq)

namespace Forest

theorem shallow (forest : h.Forest) {d n : Nat} (hdepth : h.Depth id d)
    (room : maxConnectionDepth < d + n) (bounded : d ≤ maxConnectionDepth) : Shallow h.children n id := by
  induction n generalizing id d with
  | zero => omega
  | succ n ih =>
    intro child hchild
    have hparent : h.Parent child id := child_iff.mp hchild
    have hnext : h.Depth child (d + 1) := .pane hparent hdepth
    obtain ⟨d', hd', hle⟩ := forest.depth child hparent.contains
    rw [← hnext.unique hd'] at hle
    exact ih hnext (by omega) hle

theorem shallow_max (forest : h.Forest) (hid : h.contains id) : Shallow h.children maxConnectionDepth id := by
  obtain ⟨d, hd, hle⟩ := forest.depth id hid
  have hpos : 1 ≤ d := by
    cases hd with
    | direct => omega
    | pane => omega
  exact forest.shallow hd (by omega) hle

/-- **No connection carries its own transport**, through any number of others. -/
theorem acyclic (forest : h.Forest) (id : UInt64) : ¬ h.Below id id := by
  intro hcycle
  obtain ⟨child, -, hchild⟩ := TransGen.tail'_iff.mp hcycle
  have hirrefl := (forest.shallow_max (forest.parents _ _ hchild)).irrefl
  rw [Descent.Below, child_eq] at hirrefl
  exact hirrefl hcycle

end Forest

/-! ## Insertion -/

theorem Depth.transfer {P : UInt64 → Prop} (up : ∀ x p, P x → h.Parent x p → P p)
    (keeps : ∀ x, P x → h'.origin x = h.origin x) {d : Nat} (hdepth : h.Depth id d) (hid : P id) :
    h'.Depth id d := by
  induction hdepth with
  | direct horigin => exact .direct ((keeps _ hid).trans horigin)
  | pane hparent _ ih =>
    obtain ⟨s, w, p, horigin⟩ := hparent
    exact .pane ⟨s, w, p, (keeps _ hid).trans horigin⟩ (ih (up _ _ hid ⟨s, w, p, horigin⟩))

theorem checkAncestors_ok {room : Nat} (hok : h.checkAncestors room id = .ok ()) :
    ∃ d, h.Depth id d ∧ d ≤ room := by
  induction room generalizing id with
  | zero => cases hok
  | succ room ih =>
    rw [checkAncestors] at hok
    split at hok
    · rename_i horigin
      exact ⟨1, .direct horigin, by omega⟩
    · rename_i p s w pane horigin
      obtain ⟨d, hd, hle⟩ := ih hok
      exact ⟨d + 1, .pane ⟨s, w, pane, horigin⟩ hd, by omega⟩
    · cases hok

variable {origin : GatewayOrigin}

theorem insert_ok (hok : h.insert id origin = .ok h') :
    h.contains id = false ∧ h.len ≠ maxConnections ∧ h.checkOrigin id origin = .ok () ∧
      h' = ⟨h.origins.insert id origin⟩ := by
  rw [insert] at hok
  split at hok
  · cases hok
  · rename_i hnew
    split at hok
    · cases hok
    · rename_i hroom
      obtain ⟨⟨⟩, hcheck, hins⟩ := Fallible.bind_eq_ok.mp hok
      exact ⟨eq_false_of_ne_true hnew, hroom, hcheck, (Except.ok.inj hins).symm⟩

theorem origin_insert (h : ConnectionHierarchy) (id x : UInt64) (origin : GatewayOrigin) :
    (⟨h.origins.insert id origin⟩ : ConnectionHierarchy).origin x =
      if id = x then some origin else h.origin x := by
  show (h.origins.insert id origin)[x]? = _
  rw [ExtTreeMap.getElem?_insert]
  simp only [LawfulEqCmp.compare_eq_iff_eq]
  rfl

theorem checkOrigin_depth (hok : h.checkOrigin id origin = .ok ()) :
    origin = .direct ∨ ∃ p s w pane d, origin = .pane p s w pane ∧ p ≠ id ∧ h.contains p ∧
      h.Depth p d ∧ d < maxConnectionDepth := by
  cases origin with
  | direct => exact .inl rfl
  | pane p s w pane =>
    rw [checkOrigin] at hok
    split at hok
    · cases hok
    · rename_i hparent
      obtain ⟨hne, hcontains⟩ := not_or.mp hparent
      obtain ⟨d, hd, hle⟩ := checkAncestors_ok hok
      exact .inr ⟨p, s, w, pane, d, rfl, hne, eq_true_of_ne_false hcontains, hd,
        Nat.lt_of_le_of_lt hle (by decide)⟩

theorem Forest.insert (forest : h.Forest) (hok : h.insert id origin = .ok h') : h'.Forest := by
  obtain ⟨hnew, hroom, hcheck, rfl⟩ := insert_ok hok
  have hkeeps : ∀ x, h.contains x → (⟨h.origins.insert id origin⟩ : ConnectionHierarchy).origin x =
      h.origin x := by
    intro x hx
    rw [origin_insert, if_neg]
    rintro rfl
    rw [hnew] at hx
    cases hx
  have hold : ∀ {x d}, h.contains x → h.Depth x d →
      (⟨h.origins.insert id origin⟩ : ConnectionHierarchy).Depth x d :=
    fun hx hd => hd.transfer (fun x p _ hp => forest.parents x p hp) hkeeps hx
  have hcontains : ∀ x, h.contains x → (⟨h.origins.insert id origin⟩ : ConnectionHierarchy).contains x := by
    intro x hx
    obtain ⟨o, ho⟩ := contains_iff_origin.mp hx
    exact contains_iff_origin.mpr ⟨o, (hkeeps x hx).trans ho⟩
  refine ⟨fun x p hparent => ?_, fun x hx => ?_, ?_⟩
  · obtain ⟨s, w, pane, horigin⟩ := hparent
    rw [origin_insert] at horigin
    split at horigin
    · rcases checkOrigin_depth hcheck with hdirect | ⟨p', _, _, _, _, hpane, -, hp, -⟩
      · rw [hdirect] at horigin
        cases horigin
      · rw [hpane] at horigin
        cases horigin
        exact hcontains p hp
    · exact hcontains p (forest.parents x p ⟨s, w, pane, horigin⟩)
  · by_cases hsame : id = x
    · subst hsame
      have horigin := origin_insert h id id origin
      rw [if_pos rfl] at horigin
      rcases checkOrigin_depth hcheck with hdirect | ⟨p, s, w, pane, d, hpane, -, hp, hd, hlt⟩
      · exact ⟨1, .direct (horigin.trans (congrArg some hdirect)), by decide⟩
      · exact ⟨d + 1, .pane ⟨s, w, pane, horigin.trans (congrArg some hpane)⟩ (hold hp hd), hlt⟩
    · have hx' : h.contains x := by
        obtain ⟨o, ho⟩ := contains_iff_origin.mp hx
        rw [origin_insert, if_neg hsame] at ho
        exact contains_iff_origin.mpr ⟨o, ho⟩
      obtain ⟨d, hd, hle⟩ := forest.depth x hx'
      exact ⟨d, hold hx' hd, hle⟩
  · have hsize : (h.origins.insert id origin).size ≤ h.len + 1 := size_insert_le
    have hle := forest.size
    show (h.origins.insert id origin).size ≤ _
    omega

/-! ## Removal -/

/-- The roots and all below them go, each before what it hangs from; everything else stays. -/
structure Removes (h : ConnectionHierarchy) (roots : UInt64 → Prop) (removed : List UInt64)
    (h' : ConnectionHierarchy) : Prop where
  exact : ∀ id, id ∈ removed ↔ h.contains id ∧ ∃ root, roots root ∧ h.AtOrBelow id root
  once : removed.Nodup
  bottomUp : removed.Pairwise fun a b => ¬ h.Below b a
  rest : ∀ id, h'.origin id = if id ∈ removed then none else h.origin id
  size : h'.len ≤ h.len

theorem origin_removeAll (h : ConnectionHierarchy) (removed : List UInt64) (x : UInt64) :
    (h.removeAll removed).origin x = if x ∈ removed then none else h.origin x := by
  induction removed generalizing h with
  | nil => rfl
  | cons id rest ih =>
    have herase : (⟨h.origins.erase id⟩ : ConnectionHierarchy).origin x =
        if id = x then none else h.origin x := by
      show (h.origins.erase id)[x]? = _
      rw [getElem?_erase]
      simp only [LawfulEqCmp.compare_eq_iff_eq]
      rfl
    have hrest := ih ⟨h.origins.erase id⟩
    rw [herase] at hrest
    show ((⟨h.origins.erase id⟩ : ConnectionHierarchy).removeAll rest).origin x = _
    rw [hrest]
    by_cases hmem : x ∈ rest
    · rw [if_pos hmem, if_pos (mem_cons_of_mem _ hmem)]
    · by_cases hsame : id = x
      · rw [if_neg hmem, if_pos hsame, if_pos (hsame ▸ mem_cons_self)]
      · rw [if_neg hmem, if_neg hsame, if_neg]
        exact fun hcons => (mem_cons.mp hcons).elim (fun heq => hsame heq.symm) hmem

theorem len_removeAll (h : ConnectionHierarchy) (removed : List UInt64) :
    (h.removeAll removed).len ≤ h.len := by
  induction removed generalizing h with
  | nil => exact le_rfl
  | cons id rest ih => exact (ih ⟨h.origins.erase id⟩).trans size_erase_le

theorem Forest.removes {roots : UInt64 → Prop} {removed : List UInt64} (forest : h.Forest)
    (hremoves : h.Removes roots removed h') : h'.Forest := by
  have hstays : ∀ {x}, h'.contains x ↔ h.contains x ∧ x ∉ removed := by
    intro x
    rw [contains_iff_origin, contains_iff_origin, hremoves.rest x]
    by_cases hx : x ∈ removed
    · simp [hx]
    · simp [hx]
  have hparent : ∀ {x p}, h'.Parent x p → h.Parent x p := by
    rintro x p ⟨s, w, pane, horigin⟩
    rw [hremoves.rest x] at horigin
    split at horigin
    · cases horigin
    · exact ⟨s, w, pane, horigin⟩
  have hup : ∀ x p, x ∉ removed → h.Parent x p → p ∉ removed := by
    intro x p hx hp hpin
    obtain ⟨-, root, hroot, hbelow⟩ := (hremoves.exact p).mp hpin
    exact hx ((hremoves.exact x).mpr ⟨hp.contains, root, hroot, hbelow.head hp⟩)
  refine ⟨fun x p hp => ?_, fun x hx => ?_, hremoves.size.trans forest.size⟩
  · have hx := (hstays.mp hp.contains).2
    exact hstays.mpr ⟨forest.parents x p (hparent hp), hup x p hx (hparent hp)⟩
  · obtain ⟨hx, hout⟩ := hstays.mp hx
    obtain ⟨d, hd, hle⟩ := forest.depth x hx
    exact ⟨d, hd.transfer hup (fun y hy => by rw [hremoves.rest y, if_neg hy]) hout, hle⟩

theorem Forest.collectDescendants (forest : h.Forest) (hid : h.contains id) :
    ∃ list, (∀ output, h.collectDescendants id output = some (output ++ list)) ∧
      (∀ x, x ∈ list ↔ h.Below x id) ∧ list.Nodup ∧ list.Pairwise fun a b => ¬ h.Below b a := by
  obtain ⟨list, hcollect, hmem, hseparate⟩ := (forest.shallow_max hid).collect
  obtain ⟨hnodup, hbottom⟩ := hseparate h.children_separate
  simp only [BottomUp, Descent.Below, child_eq] at hmem hbottom
  exact ⟨list, hcollect, hmem, hnodup, hbottom⟩

theorem contains_of_atOrBelow (hroot : h.contains root) (hbelow : h.AtOrBelow id root) : h.contains id := by
  rcases ReflTransGen.cases_head hbelow with rfl | ⟨_, hparent, _⟩
  · exact hroot
  · exact hparent.contains

theorem Forest.subtree (forest : h.Forest) (hid : h.contains id) :
    ∃ list, (∀ output, (h.collectDescendants id output).map (· ++ [id]) = some (output ++ list)) ∧
      (∀ x, x ∈ list ↔ h.AtOrBelow x id) ∧ list.Nodup ∧ list.Pairwise fun a b => ¬ h.Below b a := by
  obtain ⟨below, hcollect, hmem, hnodup, hbottom⟩ := forest.collectDescendants hid
  refine ⟨below ++ [id], fun output => ?_, fun x => ?_, ?_, ?_⟩
  · rw [hcollect, Option.map_some, append_assoc]
  · rw [mem_append, mem_singleton, hmem, AtOrBelow, reflTransGen_iff_eq_or_transGen, eq_comm, or_comm]
  · rw [nodup_append]
    refine ⟨hnodup, nodup_singleton id, ?_⟩
    rintro x hx y hy rfl
    rw [mem_singleton.mp hy, hmem] at hx
    exact forest.acyclic id hx
  · rw [pairwise_append]
    refine ⟨hbottom, pairwise_singleton _ _, fun x hx y hy hbelow => ?_⟩
    rw [mem_singleton.mp hy] at hbelow
    exact forest.acyclic id (hbelow.trans ((hmem x).mp hx))

theorem Forest.removes_none (forest : h.Forest) {roots : UInt64 → Prop}
    (hnone : ∀ root, roots root → h.contains root = false) : h.Removes roots [] h := by
  refine ⟨fun x => ⟨fun hx => absurd hx not_mem_nil, ?_⟩, nodup_nil, Pairwise.nil, fun _ => rfl, le_rfl⟩
  rintro ⟨hx, root, hroot, hbelow⟩
  have hcontains : h.contains root := by
    rcases ReflTransGen.cases_tail hbelow with rfl | ⟨_, _, hparent⟩
    · exact hx
    · exact forest.parents _ _ hparent
  rw [hnone root hroot] at hcontains
  cases hcontains

/-- **Removing a connection takes its subtree**, and `teardown_order` tells in which order. -/
theorem Forest.removeConnection (forest : h.Forest) (id : UInt64) :
    ∃ removed h', h.teardownOrder id = some removed ∧
      h.removeConnection id = some (removed, h') ∧ h.Removes (· = id) removed h' := by
  rw [teardownOrder, ConnectionHierarchy.removeConnection]
  split
  · rename_i hid
    obtain ⟨list, hcollect, hmem, hnodup, hbottom⟩ := forest.subtree hid
    have horder := hcollect []
    obtain ⟨below, hbelow, rfl⟩ := Option.map_eq_some_iff.mp horder
    refine ⟨below ++ [id], h.removeAll (below ++ [id]), horder, ?_, fun x => ?_, hnodup, hbottom,
      h.origin_removeAll _, h.len_removeAll _⟩
    · rw [hbelow]
      rfl
    · rw [hmem]
      constructor
      · exact fun hx => ⟨contains_of_atOrBelow hid hx, id, rfl, hx⟩
      · rintro ⟨-, _, rfl, hx⟩
        exact hx
  · rename_i hid
    refine ⟨[], h, rfl, rfl, forest.removes_none ?_⟩
    rintro _ rfl
    exact eq_false_of_ne_true hid

/-- The roots collected so far, with all that lies below them. -/
structure Collected (h : ConnectionHierarchy) (roots collected : List UInt64) : Prop where
  exact : ∀ x, x ∈ collected ↔ ∃ root ∈ roots, h.AtOrBelow x root
  bottomUp : (keepFirst [] collected).Pairwise fun a b => ¬ h.Below b a

variable {roots collected more : List UInt64}

theorem Collected.next (forest : h.Forest) {root : UInt64}
    (hcollected : h.Collected roots collected) (hroot : h.contains root) :
    ∃ more, h.collectRoot collected root = some more ∧ h.Collected (roots ++ [root]) more := by
  obtain ⟨list, hcollect, hmem, -, hbottom⟩ := forest.subtree hroot
  refine ⟨collected ++ list, ?_, fun x => ?_, ?_⟩
  · rw [collectRoot, if_pos hroot]
    exact hcollect collected
  · simp only [mem_append, mem_singleton, hcollected.exact x, hmem x, or_and_right, exists_or, exists_eq_left]
  · have happend := @bottomUp_keepFirst_append _ _ h.children collected list
    simp only [BottomUp, Descent.Below, child_eq] at happend
    refine happend (fun a ha b hbelow => ?_) hcollected.bottomUp hbottom
    obtain ⟨r, hr, har⟩ := (hcollected.exact a).mp ha
    exact (hcollected.exact b).mpr ⟨r, hr, hbelow.to_reflTransGen.trans har⟩

theorem Collected.foldlM (forest : h.Forest)
    (hcollected : h.Collected roots collected) (hmore : ∀ root ∈ more, h.contains root) :
    ∃ all, more.foldlM h.collectRoot collected = some all ∧ h.Collected (roots ++ more) all := by
  induction more generalizing roots collected with
  | nil => exact ⟨collected, rfl, by rwa [append_nil]⟩
  | cons root rest ih =>
    obtain ⟨next, hnext, hcollected'⟩ := hcollected.next forest (hmore root mem_cons_self)
    obtain ⟨all, hall, hcollected''⟩ := ih hcollected' fun r hr => hmore r (mem_cons_of_mem _ hr)
    refine ⟨all, ?_, ?_⟩
    · rw [foldlM_cons, hnext]
      exact hall
    · rwa [append_assoc] at hcollected''

/-- **Removing roots** that exist takes their subtrees. -/
theorem Forest.removeRoots (forest : h.Forest) (hroots : ∀ root ∈ roots, h.contains root) :
    ∃ removed h', h.removeRoots roots = some (removed, h') ∧ h.Removes (· ∈ roots) removed h' := by
  have hstart : h.Collected [] [] := by
    refine ⟨fun x => ⟨fun hx => absurd hx not_mem_nil, ?_⟩, Pairwise.nil⟩
    rintro ⟨root, hroot, -⟩
    cases hroot
  obtain ⟨all, hall, hcollected⟩ := hstart.foldlM forest hroots
  refine ⟨keepFirst [] all, h.removeAll (keepFirst [] all), ?_, fun x => ?_, nodup_keepFirst _ _,
    hcollected.bottomUp, h.origin_removeAll _, h.len_removeAll _⟩
  · rw [ConnectionHierarchy.removeRoots, hall]
    rfl
  · rw [mem_keepFirst, hcollected.exact]
    constructor
    · rintro ⟨⟨root, hroot, hx⟩, -⟩
      exact ⟨contains_of_atOrBelow (hroots root hroot) hx, root, hroot, hx⟩
    · rintro ⟨-, root, hroot, hx⟩
      exact ⟨⟨root, hroot, hx⟩, not_mem_nil⟩

theorem Forest.removeSelected (forest : h.Forest) (keep : GatewayOrigin → Bool) :
    ∃ removed h', h.removeRoots (h.select keep) = some (removed, h') ∧
      h.Removes (fun root => ∃ origin, h.origin root = some origin ∧ keep origin) removed h' := by
  have hroots : ∀ root ∈ h.select keep, h.contains root := by
    intro root hroot
    obtain ⟨origin, horigin, -⟩ := mem_select.mp hroot
    exact contains_iff_origin.mpr ⟨origin, horigin⟩
  obtain ⟨removed, h', hremove, hremoves⟩ := forest.removeRoots hroots
  refine ⟨removed, h', hremove, ?_⟩
  simpa only [mem_select] using hremoves

/-! ## Runs -/

inductive Op
  | insert (connectionId : UInt64) (origin : GatewayOrigin)
  | removeConnection (connectionId : UInt64)
  | removeGatewayPane (parentConnectionId paneId : UInt64)
  | removeGatewayWindow (parentConnectionId windowId : UInt64)

def step (h : ConnectionHierarchy) : Op → Option ConnectionHierarchy
  | .insert connectionId origin =>
    match h.insert connectionId origin with
    | .ok h' => some h'
    | .error _ => some h
  | .removeConnection connectionId => (h.removeConnection connectionId).map (·.2)
  | .removeGatewayPane parentConnectionId paneId => (h.removeGatewayPane parentConnectionId paneId).map (·.2)
  | .removeGatewayWindow parentConnectionId windowId =>
    (h.removeGatewayWindow parentConnectionId windowId).map (·.2)

theorem Forest.new : new.Forest := by
  refine ⟨fun id parent hparent => ?_, fun id hid => ?_, Nat.zero_le _⟩
  · obtain ⟨s, w, p, horigin⟩ := hparent
    cases horigin
  · obtain ⟨origin, horigin⟩ := contains_iff_origin.mp hid
    cases horigin

theorem Forest.step (forest : h.Forest) (op : Op) : ∃ h', h.step op = some h' ∧ h'.Forest := by
  cases op with
  | insert connectionId origin =>
    rw [ConnectionHierarchy.step]
    cases hinsert : h.insert connectionId origin with
    | ok h' => exact ⟨h', rfl, forest.insert hinsert⟩
    | error e => exact ⟨h, rfl, forest⟩
  | removeConnection connectionId =>
    obtain ⟨removed, h', -, hremove, hremoves⟩ := forest.removeConnection connectionId
    refine ⟨h', ?_, forest.removes hremoves⟩
    rw [ConnectionHierarchy.step, hremove, Option.map_some]
  | removeGatewayPane parentConnectionId paneId =>
    obtain ⟨removed, h', hremove, hremoves⟩ := forest.removeSelected (isInPane parentConnectionId paneId)
    refine ⟨h', ?_, forest.removes hremoves⟩
    rw [ConnectionHierarchy.step, removeGatewayPane, hremove, Option.map_some]
  | removeGatewayWindow parentConnectionId windowId =>
    obtain ⟨removed, h', hremove, hremoves⟩ := forest.removeSelected (isInWindow parentConnectionId windowId)
    refine ⟨h', ?_, forest.removes hremoves⟩
    rw [ConnectionHierarchy.step, removeGatewayWindow, hremove, Option.map_some]

/-- **Every sequence of operations returns** and leaves a forest. -/
theorem Forest.run (forest : h.Forest) (ops : List Op) :
    ∃ h', PartialRun.run ConnectionHierarchy.step h ops = some h' ∧ h'.Forest := by
  induction ops generalizing h with
  | nil => exact ⟨h, rfl, forest⟩
  | cons op rest ih =>
    obtain ⟨next, hstep, hnext⟩ := forest.step op
    obtain ⟨h', hrun, hforest⟩ := ih hnext
    refine ⟨h', ?_, hforest⟩
    rw [PartialRun.run, hstep]
    exact hrun

/-- **A hierarchy is a bounded forest after every sequence of operations**, and each removal takes exactly the
subtrees of its roots, children before their parents. -/
theorem run_forest (ops : List Op) : ∃ h, PartialRun.run ConnectionHierarchy.step new ops = some h ∧
      h.Forest ∧ (∀ id, ¬ h.Below id id) ∧
      (∀ id, ∃ removed h', h.teardownOrder id = some removed ∧
        h.removeConnection id = some (removed, h') ∧ h.Removes (· = id) removed h') ∧
      (∀ parent pane, ∃ removed h', h.removeGatewayPane parent pane = some (removed, h') ∧
        h.Removes (fun root => ∃ s w, h.origin root = some (.pane parent s w pane)) removed h') ∧
      ∀ parent window, ∃ removed h', h.removeGatewayWindow parent window = some (removed, h') ∧
        h.Removes (fun root => ∃ s p, h.origin root = some (.pane parent s window p)) removed h' := by
  obtain ⟨h, hrun, forest⟩ := Forest.new.run ops
  refine ⟨h, hrun, forest, forest.acyclic, forest.removeConnection, fun parent pane => ?_,
    fun parent window => ?_⟩
  · have hroots : (fun root => ∃ origin, h.origin root = some origin ∧ isInPane parent pane origin) =
        fun root => ∃ s w, h.origin root = some (.pane parent s w pane) := by
      funext root
      refine propext ⟨?_, fun ⟨s, w, horigin⟩ => ⟨_, horigin, by simp [isInPane]⟩⟩
      rintro ⟨origin, horigin, hkeep⟩
      cases origin with
      | direct => cases hkeep
      | pane parent' s w pane' =>
        simp only [isInPane, Bool.and_eq_true, beq_iff_eq] at hkeep
        obtain ⟨rfl, rfl⟩ := hkeep
        exact ⟨s, w, horigin⟩
    rw [← hroots]
    exact forest.removeSelected _
  · have hroots : (fun root => ∃ origin, h.origin root = some origin ∧ isInWindow parent window origin) =
        fun root => ∃ s p, h.origin root = some (.pane parent s window p) := by
      funext root
      refine propext ⟨?_, fun ⟨s, p, horigin⟩ => ⟨_, horigin, by simp [isInWindow]⟩⟩
      rintro ⟨origin, horigin, hkeep⟩
      cases origin with
      | direct => cases hkeep
      | pane parent' s window' p =>
        simp only [isInWindow, Bool.and_eq_true, beq_iff_eq] at hkeep
        obtain ⟨rfl, rfl⟩ := hkeep
        exact ⟨s, p, horigin⟩
    rw [← hroots]
    exact forest.removeSelected _

end ConnectionHierarchy

end Lector.Lifecycle
