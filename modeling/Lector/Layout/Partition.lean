import Lector.Layout.Termination

/-! An accepted layout partitions its window: the tiled panes and the dividers tile the rectangle of
the root, and no pane id occurs twice. -/
namespace Lector.Layout
open Std Lector.Topology Fueled LayoutTree Tiling List

/-! ## Pane ids -/

def idsOf (panes : List LayoutPane) : List PaneId := panes.map LayoutPane.paneId

theorem collectIds_spec {ids ids' : ExtTreeSet PaneId} {panes : List LayoutPane}
    (h : collectIds ids panes = .ok ids') :
    (idsOf panes).Nodup ∧ (∀ id ∈ idsOf panes, ids.contains id = false) ∧
      ∀ id, ids'.contains id = true ↔ ids.contains id = true ∨ id ∈ idsOf panes := by
  induction panes generalizing ids with
  | nil =>
    obtain rfl := Except.ok.inj h
    simp [idsOf]
  | cons pane panes ih =>
    rw [collectIds] at h
    by_cases hseen : ids.contains pane.paneId = true
    · rw [if_pos hseen] at h
      cases h
    rw [if_neg hseen] at h
    obtain ⟨hnodup, hfresh, hcontains⟩ := ih h
    have hinsert : ∀ id, (ids.insert pane.paneId).contains id = true ↔
        id = pane.paneId ∨ ids.contains id = true := by
      intro id
      rw [ExtTreeSet.contains_insert, Bool.or_eq_true, beq_iff_eq, LawfulEqCmp.compare_eq_iff_eq, eq_comm]
    have hself : pane.paneId ∉ idsOf panes := by
      intro hmem
      have hfalse := hfresh _ hmem
      rw [(hinsert pane.paneId).mpr (.inl rfl)] at hfalse
      cases hfalse
    refine ⟨nodup_cons.mpr ⟨hself, hnodup⟩, ?_, ?_⟩
    · intro id hid
      obtain rfl | hid := mem_cons.mp hid
      · exact Bool.eq_false_iff.mpr hseen
      · have hfalse := hfresh id hid
        cases hid' : ids.contains id with
        | false => rfl
        | true =>
          rw [(hinsert id).mpr (.inr hid')] at hfalse
          exact hfalse
    · intro id
      rw [hcontains, hinsert]
      show _ ↔ _ ∨ id ∈ pane.paneId :: idsOf panes
      rw [mem_cons]
      constructor
      · rintro ((h | h) | h)
        · exact .inr (.inl h)
        · exact .inl h
        · exact .inr (.inr h)
      · rintro (h | h | h)
        · exact .inl (.inr h)
        · exact .inl (.inl h)
        · exact .inr h

/-! ## The parts of an accepted layout -/

/-- `parts` is what `layout` says: its main tree, and the panes of its suffix. -/
structure Describes (layout : Bytes) (parts : LayoutParts) (tree : LayoutTree) : Prop where
  spelled : ∃ body floating, splitLayout layout = .ok (body, floating) ∧ tree.Spells body
  root : parts.root = nodeOf (floatsIn parts.floatingIds) tree
  treePanes : parts.treePanes = tree.panes
  dividers : parts.dividers = tree.dividers (floatsIn parts.floatingIds)
  partitioned : tree.Partitioned (floatsIn parts.floatingIds)
  treeIds : (idsOf parts.treePanes).Nodup
  floatingIds : (idsOf parts.floatingPanes).Nodup
  floats : ∀ id, floatsIn parts.floatingIds id = true ↔ id ∈ idsOf parts.floatingPanes

theorem describes_of_parse {fuel : Nat} {layout : Bytes} {parts : LayoutParts}
    (h : TmuxLayout.parseWith fuel layout = some (.ok parts)) : ∃ tree, Describes layout parts tree := by
  have hends : Ends (parseParts fuel layout) ⟨⟩ parts ⟨⟩ := by
    rw [TmuxLayout.parseWith, Option.map_eq_some_iff] at h
    obtain ⟨r, hr, h⟩ := h
    cases r with
    | error e => exact absurd h (by simp [Except.map])
    | ok p =>
      obtain ⟨parts', u⟩ := p
      have hparts : parts' = parts := by simpa [Except.map] using h
      rw [← hparts]
      exact hr
  simp only [parseParts, ends_bind] at hends
  obtain ⟨⟨body, floatingBody⟩, u₁, hsplit, floatingPanes, u₂, -, floatingIds, u₃, hids,
    ⟨root, parser⟩, u₄, hroot, hrest⟩ := hends
  obtain ⟨hsplit, -⟩ := ends_settle.mp hsplit
  obtain ⟨hids, -⟩ := ends_settle.mp hids
  obtain ⟨hroot, -⟩ := ends_isolated.mp hroot
  by_cases hbad : parser.rest ≠ [] ∨ parser.panes = []
  · rw [if_pos hbad, ends_throw] at hrest
    exact hrest.elim
  rw [if_neg hbad] at hrest
  simp only [ends_bind] at hrest
  obtain ⟨treeIds, u₅, htreeIds, hrest⟩ := hrest
  obtain ⟨htreeIds, -⟩ := ends_settle.mp htreeIds
  obtain ⟨tree, text, hreads, -, hspells, hparsed, -⟩ := reads_node floatingIds fuel _ none _ _ _ hroot
  have hend : parser.rest = [] := not_not.mp fun hne => hbad (.inl hne)
  have htext : body = text := by
    have hread : body = text ++ parser.rest := hreads.text
    rw [hread, hend, append_nil]
  have hpanes : parser.panes = tree.panes := by
    have hread := hreads.panes
    simpa [LayoutParser.start] using hread
  have hdividers : parser.dividers = tree.dividers (floatsIn floatingIds) := by
    have hread := hreads.dividers
    simpa [LayoutParser.start] using hread
  obtain ⟨hfloatingNodup, -, hcontains⟩ := collectIds_spec hids
  split at hrest
  · obtain ⟨rfl, -⟩ := ends_pure.mp hrest
    refine ⟨tree, ⟨body, floatingBody, hsplit, htext ▸ hspells⟩, hparsed, hpanes, hdividers,
      hreads.partitioned tree mem_cons_self, (collectIds_spec htreeIds).1, hfloatingNodup, ?_⟩
    intro id
    rw [floatsIn, hcontains]
    simp
  · exact (ends_throw.mp hrest).elim

section Parts

variable {layout : Bytes} {parts : LayoutParts} {tree : LayoutTree}

section

variable (h : Describes layout parts tree)
include h

theorem Describes.tiled : parts.tiled = tree.tiledPanes (floatsIn parts.floatingIds) := by
  rw [LayoutParts.tiled, h.treePanes]
  rfl

theorem Describes.nodup : (idsOf parts.layout.panes).Nodup := by
  rw [idsOf, LayoutParts.layout, map_append, map_reverse]
  have htiled : (idsOf parts.tiled).Nodup := by
    have hsub : (idsOf parts.tiled).Sublist (idsOf parts.treePanes) :=
      (filter_sublist (l := parts.treePanes)).map _
    exact hsub.nodup h.treeIds
  have hfloating := nodup_reverse.mpr h.floatingIds
  apply htiled.append hfloating
  intro id htiled hfloating
  obtain ⟨pane, hpane, rfl⟩ := mem_map.mp htiled
  have hnot := (mem_filter.mp hpane).2
  have hfloat := (h.floats pane.paneId).mpr (mem_reverse.mp hfloating)
  rw [floatsIn] at hfloat
  rw [hfloat] at hnot
  cases hnot

theorem Describes.tiles (hroot : parts.root.floating = false) : Tiles parts.root.rect.region
      (parts.tiled.map LayoutPane.region ++ parts.dividers.map Divider.region) := by
  rw [h.root] at hroot
  rw [h.root, h.tiled, h.dividers]
  exact h.partitioned.tiles hroot

end

end Parts

namespace TmuxLayout

/-- **Accepted layouts partition their root.** Pane ids are unique, and unless the root itself floats, tiled
panes and dividers are disjoint and make it up, each divider being the one-cell strip between two tiled
children. -/
theorem parse_tiles_root (layout : Bytes) :
    (∃ result, ∀ fuel, maxLayoutNodes < fuel → parseWith fuel layout = some result) ∧
      (∀ rect : NodeRect, rect.right.toNat = rect.x.toNat + rect.width.toNat ∧
        (rect.right + 1).toNat = rect.x.toNat + rect.width.toNat + 1 ∧
        rect.bottom.toNat = rect.y.toNat + rect.height.toNat ∧
        (rect.bottom + 1).toNat = rect.y.toNat + rect.height.toNat + 1) ∧
      ∀ accepted, parse layout = some (.ok accepted) → (idsOf accepted.panes).Nodup ∧
        ∃ parts tree, parseWith (maxLayoutNodes + 1) layout = some (.ok parts) ∧
          accepted = ⟨parts.tiled ++ parts.floatingPanes.reverse, parts.dividers⟩ ∧
          Describes layout parts tree ∧
          (parts.root.floating = false → Tiles parts.root.rect.region
              (parts.tiled.map LayoutPane.region ++ parts.dividers.map Divider.region) ∧
            ∀ d ∈ parts.dividers, ∃ rect kind children, LayoutTree.Node (.split rect kind children) tree ∧
              ∃ pair ∈ pairs ((tiledOf (floatsIn parts.floatingIds) children).map LayoutTree.rect),
                Separates d pair.1 pair.2) := by
  refine ⟨?_, NodeRect.ends_exact, ?_⟩
  · obtain ⟨result, hresult, -⟩ := parseWith_stable (Nat.lt_succ_self _) layout
    refine ⟨result, fun fuel hfuel => ?_⟩
    obtain ⟨result', hresult', hfuel'⟩ := parseWith_stable hfuel layout
    rw [hfuel', ← hresult', hresult]
  · intro accepted h
    rw [parse, Option.map_eq_some_iff] at h
    obtain ⟨r, hr, h⟩ := h
    cases r with
    | error e => exact absurd h (by simp [Except.map])
    | ok parts =>
      have hlayout : parts.layout = accepted := by simpa [Except.map] using h
      obtain ⟨tree, hdescribes⟩ := describes_of_parse hr
      refine ⟨hlayout ▸ hdescribes.nodup, parts, tree, hr, hlayout.symm, hdescribes, ?_⟩
      intro hroot
      refine ⟨hdescribes.tiles hroot, fun d hd => ?_⟩
      rw [hdescribes.dividers] at hd
      exact hdescribes.partitioned.separates hd

def nestedLayout : Bytes := ascii "511d,9x5,0,0{4x5,0,0,1,4x5,5,0[4x2,5,0,2,4x2,5,3,3],3x2,1,1,4}<3x2,1,1,4>"

theorem parse_nestedLayout : parse nestedLayout = some (.ok
    ⟨[⟨⟨1⟩, ⟨0, 0⟩, 5, 4⟩, ⟨⟨2⟩, ⟨0, 5⟩, 2, 4⟩, ⟨⟨3⟩, ⟨3, 5⟩, 2, 4⟩, ⟨⟨4⟩, ⟨1, 1⟩, 2, 3⟩],
      [⟨.topBottom, ⟨2, 5⟩, 4⟩, ⟨.leftRight, ⟨0, 4⟩, 5⟩]⟩) := by
  decide +kernel

theorem parse_tiles_root_nested :
    ∃ parts : LayoutParts, (idsOf parts.layout.panes).Nodup ∧ parts.tiled.length = 3 ∧
      parts.dividers.length = 2 ∧ Tiles parts.root.rect.region
        (parts.tiled.map LayoutPane.region ++ parts.dividers.map Divider.region) := by
  obtain ⟨-, -, haccepted⟩ := parse_tiles_root nestedLayout
  obtain ⟨hnodup, parts, tree, hparts, hlayout, -, hroot⟩ := haccepted _ parse_nestedLayout
  have hchecks : ((parseWith (maxLayoutNodes + 1) nestedLayout).all fun result =>
      match result with
      | .ok parts => !parts.root.floating && parts.tiled.length == 3 && parts.dividers.length == 2
      | .error _ => false) = true := by decide +kernel
  rw [hparts] at hchecks
  simp only [Option.all_some, Bool.and_eq_true, Bool.not_eq_true', beq_iff_eq] at hchecks
  rw [hlayout] at hnodup
  exact ⟨parts, hnodup, hchecks.1.2, hchecks.2, (hroot hchecks.1.1).1⟩

end TmuxLayout

end Lector.Layout
