import Lector.Foundations.Tiling
import Lector.Layout.Parser

/-! What a layout string describes: a tree of rectangles on the grid. The local conditions that the
parser checks at each split make every tree that does not float a tiling of its rectangle. -/
namespace Lector.Layout
open Bytes Lector.Topology Tiling List NodeRect

/-! ## Regions -/

def SplitKind.flip : SplitKind → SplitKind
  | .leftRight => .topBottom
  | .topBottom => .leftRight

def GridPoint.along : SplitKind → GridPoint → Int
  | .leftRight, c => c.col
  | .topBottom, c => c.row

variable (kind : SplitKind)

def strip (span : Int × Int) : Set GridPoint :=
  Set.preimage (GridPoint.along kind) (cells span)

def NodeRect.span : SplitKind → NodeRect → Int × Int
  | .leftRight, r => (r.x.toNat, r.x.toNat + r.width.toNat)
  | .topBottom, r => (r.y.toNat, r.y.toNat + r.height.toNat)

variable (r : NodeRect)

def NodeRect.region : Set GridPoint :=
  strip .leftRight (r.span .leftRight) ∩ strip .topBottom (r.span .topBottom)

def LayoutPane.region (pane : LayoutPane) : Set GridPoint :=
  strip .leftRight (pane.origin.col, pane.origin.col + pane.cols.toNat) ∩
    strip .topBottom (pane.origin.row, pane.origin.row + pane.rows.toNat)

def Divider.region (d : Divider) : Set GridPoint :=
  match d.kind with
  | .leftRight =>
    strip .leftRight (d.origin.col, d.origin.col + 1) ∩
      strip .topBottom (d.origin.row, d.origin.row + d.length.toNat)
  | .topBottom =>
    strip .leftRight (d.origin.col, d.origin.col + d.length.toNat) ∩
      strip .topBottom (d.origin.row, d.origin.row + 1)

theorem NodeRect.region_eq : r.region = strip kind (r.span kind) ∩ strip kind.flip (r.span kind.flip) := by
  cases kind with
  | leftRight => rfl
  | topBottom => exact Set.inter_comm _ _

theorem NodeRect.span_le : (r.span kind).1 ≤ (r.span kind).2 := by
  cases kind with
  | leftRight => simp only [span]; omega
  | topBottom => simp only [span]; omega

/-! ## The sums of coordinates -/

theorem toNat_add_u16 (a b : UInt16) : (a.toUInt32 + b.toUInt32).toNat = a.toNat + b.toNat := by
  have ha := a.toNat_lt
  have hb := b.toNat_lt
  rw [UInt32.toNat_add, UInt16.toNat_toUInt32, UInt16.toNat_toUInt32]
  omega

theorem toNat_succ_add_u16 (a b : UInt16) : (a.toUInt32 + b.toUInt32 + 1).toNat = a.toNat + b.toNat + 1 := by
  have ha := a.toNat_lt
  have hb := b.toNat_lt
  rw [UInt32.toNat_add, toNat_add_u16]
  simp only [UInt32.reduceToNat]
  omega

theorem NodeRect.ends_exact :
    r.right.toNat = r.x.toNat + r.width.toNat ∧ (r.right + 1).toNat = r.x.toNat + r.width.toNat + 1 ∧
      r.bottom.toNat = r.y.toNat + r.height.toNat ∧
      (r.bottom + 1).toNat = r.y.toNat + r.height.toNat + 1 :=
  ⟨toNat_add_u16 _ _, toNat_succ_add_u16 _ _, toNat_add_u16 _ _, toNat_succ_add_u16 _ _⟩

theorem saturatingPred_toNat {n : UInt16} (h : 0 < n.toNat) : (saturatingPred n).toNat = n.toNat - 1 := by
  have hn : n ≠ 0 := by
    intro h0
    rw [h0] at h
    cases h
  have hle : (1 : UInt16) ≤ n := UInt16.le_iff_toNat_le.mpr h
  rw [saturatingPred, if_neg hn, UInt16.toNat_sub_of_le n 1 hle]
  rfl

/-! ## The checks of a split -/

section Checks

variable {kind : SplitKind} {rect child : NodeRect}

theorem firstFits_spec (h : firstFits kind rect child = true) :
    (child.span kind).1 = (rect.span kind).1 ∧ child.span kind.flip = rect.span kind.flip := by
  cases kind with
  | leftRight =>
    simp only [firstFits, Bool.and_eq_true, beq_iff_eq] at h
    simp [NodeRect.span, SplitKind.flip, h.1.1, h.1.2, h.2]
  | topBottom =>
    simp only [firstFits, Bool.and_eq_true, beq_iff_eq] at h
    simp [NodeRect.span, SplitKind.flip, h.1.1, h.1.2, h.2]

theorem lastFits_spec (h : lastFits kind rect child = true) : (child.span kind).2 = (rect.span kind).2 := by
  obtain ⟨hcr, -, hcb, -⟩ := child.ends_exact
  obtain ⟨hrr, -, hrb, -⟩ := rect.ends_exact
  cases kind with
  | leftRight =>
    have heq : child.right = rect.right := by simpa [lastFits] using h
    rw [heq] at hcr
    simp only [NodeRect.span]
    omega
  | topBottom =>
    have heq : child.bottom = rect.bottom := by simpa [lastFits] using h
    rw [heq] at hcb
    simp only [NodeRect.span]
    omega

theorem pairFits_spec {pair : NodeRect × NodeRect} (h : pairFits kind rect pair = true) :
    (pair.2.span kind).1 = (pair.1.span kind).2 + 1 ∧ pair.2.span kind.flip = rect.span kind.flip := by
  obtain ⟨-, hright, -, hbottom⟩ := pair.1.ends_exact
  cases kind with
  | leftRight =>
    simp only [pairFits, Bool.and_eq_true, beq_iff_eq] at h
    rw [h.2, UInt16.toNat_toUInt32] at hright
    constructor
    · simp only [NodeRect.span]
      omega
    · simp [NodeRect.span, SplitKind.flip, h.1.1, h.1.2]
  | topBottom =>
    simp only [pairFits, Bool.and_eq_true, beq_iff_eq] at h
    rw [h.2, UInt16.toNat_toUInt32] at hbottom
    constructor
    · simp only [NodeRect.span]
      omega
    · simp [NodeRect.span, SplitKind.flip, h.1.1, h.1.2]

theorem dividerBefore_region {pair : NodeRect × NodeRect} (h : pairFits kind rect pair = true) :
    (dividerBefore kind rect pair.2).region = strip kind ((pair.2.span kind).1 - 1, (pair.2.span kind).1) ∩
        strip kind.flip (rect.span kind.flip) := by
  obtain ⟨hnext, -⟩ := pairFits_spec h
  have hle := pair.1.span_le kind
  cases kind with
  | leftRight =>
    simp only [NodeRect.span] at hnext hle
    have hpos : 0 < pair.2.x.toNat := by omega
    have hpred := saturatingPred_toNat hpos
    have horigin : ((saturatingPred pair.2.x).toNat : Int) = pair.2.x.toNat - 1 := by omega
    simp [dividerBefore, Divider.region, NodeRect.span, SplitKind.flip, horigin]
  | topBottom =>
    simp only [NodeRect.span] at hnext hle
    have hpos : 0 < pair.2.y.toNat := by omega
    have hpred := saturatingPred_toNat hpos
    have horigin : ((saturatingPred pair.2.y).toNat : Int) = pair.2.y.toNat - 1 := by omega
    simp [dividerBefore, Divider.region, NodeRect.span, SplitKind.flip, horigin, Set.inter_comm]

theorem pairs_map_snd {α β : Type} (f : α → β) (xs : List α) :
    (pairs xs).map (fun pair => f pair.2) = xs.tail.map f := by
  have hsnd : (pairs xs).map Prod.snd = xs.tail := by
    apply map_snd_zip
    simp
  have hmap : (pairs xs).map (f ∘ Prod.snd) = xs.tail.map f := by
    rw [← map_map, hsnd]
  exact hmap

theorem spaced_of_fits {tiled : List NodeRect} (hlo : firstFits kind rect child = true ∨
      ∃ before, pairFits kind rect (before, child) = true)
    (hlast : (child :: tiled).getLast?.any (lastFits kind rect) = true)
    (hpairs : ∀ pair ∈ pairs (child :: tiled), pairFits kind rect pair = true) :
    Spaced (rect.span kind).2 (child.span kind).1 ((child :: tiled).map (span kind)) ∧
      ∀ t ∈ child :: tiled, t.span kind.flip = rect.span kind.flip := by
  have hchild : child.span kind.flip = rect.span kind.flip := by
    obtain hlo | ⟨before, hlo⟩ := hlo
    · exact (firstFits_spec hlo).2
    · exact (pairFits_spec hlo).2
  induction tiled generalizing child with
  | nil =>
    have hend : lastFits kind rect child = true := by simpa using hlast
    exact ⟨⟨rfl, child.span_le kind, lastFits_spec hend⟩, by simpa using hchild⟩
  | cons next tiled ih =>
    have hpair := hpairs _ mem_cons_self
    obtain ⟨hstart, hnext⟩ := pairFits_spec hpair
    have hrest := ih (.inr ⟨child, hpair⟩) (by simpa using hlast)
      (fun pair hp => hpairs pair (mem_cons_of_mem _ hp)) hnext
    constructor
    · refine ⟨rfl, child.span_le kind, ?_⟩
      rw [← hstart]
      exact hrest.1
    · intro t ht
      obtain rfl | ht := mem_cons.mp ht
      · exact hchild
      · exact hrest.2 t ht

theorem validPartition_spec {tiled : List NodeRect} (h : validPartition kind rect tiled = true) :
    Spaced (rect.span kind).2 (rect.span kind).1 (tiled.map (span kind)) ∧
      (∀ t ∈ tiled, t.span kind.flip = rect.span kind.flip) ∧
      ∀ pair ∈ pairs tiled, pairFits kind rect pair = true := by
  simp only [validPartition, Bool.and_eq_true, all_eq_true] at h
  obtain ⟨⟨hfirst, hlast⟩, hpairs⟩ := h
  cases tiled with
  | nil => simp at hfirst
  | cons child tiled =>
    obtain ⟨hspaced, hflip⟩ := spaced_of_fits (.inl hfirst) hlast hpairs
    rw [(firstFits_spec hfirst).1] at hspaced
    exact ⟨hspaced, hflip, hpairs⟩

theorem validPartition_tiles {tiled : List NodeRect} (h : validPartition kind rect tiled = true) :
    Tiles rect.region (tiled.map region ++
      ((pairs tiled).map fun pair => dividerBefore kind rect pair.2).map Divider.region) := by
  obtain ⟨hspaced, hflip, hpairs⟩ := validPartition_spec h
  have htiles := hspaced.tiles.strip (GridPoint.along kind) (strip kind.flip (rect.span kind.flip))
  rw [rect.region_eq kind]
  have hrects : ((tiled.map (span kind)).map cells).map
      (fun p => Set.preimage (GridPoint.along kind) p ∩ strip kind.flip (rect.span kind.flip)) =
        tiled.map region := by
    rw [map_map, map_map]
    apply map_congr_left
    intro t ht
    rw [t.region_eq kind, hflip t ht]
    rfl
  have hgaps : ((tiled.map (span kind)).tail.map gapBefore).map
      (fun p => Set.preimage (GridPoint.along kind) p ∩ strip kind.flip (rect.span kind.flip)) =
        ((pairs tiled).map fun pair => dividerBefore kind rect pair.2).map Divider.region := by
    rw [← map_tail, map_map, map_map, ← pairs_map_snd, map_map]
    apply map_congr_left
    intro pair hp
    simp only [Function.comp_apply]
    rw [dividerBefore_region (hpairs pair hp)]
    congr 1
    ext c
    simp only [strip, gapBefore, cells, Set.mem_preimage, Set.mem_singleton_iff, Set.mem_Ico]
    omega
  rw [map_append, hrects, hgaps] at htiles
  exact htiles

end Checks

/-! ## Trees -/

inductive LayoutTree
  | pane (rect : NodeRect) (id : PaneId)
  | split (rect : NodeRect) (kind : SplitKind) (children : List LayoutTree)

namespace LayoutTree

def rect : LayoutTree → NodeRect
  | pane rect _ => rect
  | split rect _ _ => rect

def layoutPane (rect : NodeRect) (id : PaneId) : LayoutPane :=
  ⟨id, ⟨rect.y.toNat, rect.x.toNat⟩, rect.height, rect.width⟩

def panes : LayoutTree → List LayoutPane
  | pane rect id => [layoutPane rect id]
  | split _ _ children => children.flatMap panes

variable (floats : PaneId → Bool)

def floating : LayoutTree → Bool
  | pane _ id => floats id
  | split _ _ children => (children.map floating).all id

def tiledOf (children : List LayoutTree) : List LayoutTree :=
  children.filter fun child => !child.floating floats

def tiledPanes (tree : LayoutTree) : List LayoutPane := tree.panes.filter fun pane => !floats pane.paneId

def ownDividers (rect : NodeRect) (kind : SplitKind) (children : List LayoutTree) : List Divider :=
  (pairs ((tiledOf floats children).map LayoutTree.rect)).map fun pair => dividerBefore kind rect pair.2

def dividers : LayoutTree → List Divider
  | pane _ _ => []
  | split rect kind children => children.flatMap dividers ++ ownDividers floats rect kind children

/-- Every split of the tree passes the checks of its own children. -/
inductive Partitioned : LayoutTree → Prop
  | pane (rect : NodeRect) (id : PaneId) : Partitioned (.pane rect id)
  | split (rect : NodeRect) (kind : SplitKind) (children : List LayoutTree)
      (parts : ∀ child ∈ children, Partitioned child)
      (inside : ∀ child ∈ children, rect.contains child.rect = true)
      (valid : tiledOf floats children = [] ∨
        validPartition kind rect ((tiledOf floats children).map LayoutTree.rect) = true) :
      Partitioned (.split rect kind children)

inductive Node (node : LayoutTree) : LayoutTree → Prop
  | root : Node node node
  | inside (rect : NodeRect) (kind : SplitKind) (children : List LayoutTree) (child : LayoutTree)
      (mem : child ∈ children) (found : Node node child) : Node node (.split rect kind children)

variable {floats}

theorem flatMap_filter_of_nil {α β : Type} {p : α → Bool} {f : α → List β} {xs : List α}
    (h : ∀ x ∈ xs, p x = false → f x = []) : (xs.filter p).flatMap f = xs.flatMap f := by
  induction xs with
  | nil => rfl
  | cons x xs ih =>
    have hxs := ih fun y hy => h y (mem_cons_of_mem _ hy)
    cases hp : p x with
    | false => rw [filter_cons_of_neg (by simp [hp]), hxs, flatMap_cons, h x mem_cons_self hp, nil_append]
    | true => rw [filter_cons_of_pos hp, flatMap_cons, flatMap_cons, hxs]

variable {children : List LayoutTree}

theorem tiledOf_eq_nil : tiledOf floats children = [] ↔ ∀ child ∈ children, child.floating floats = true := by
  simp [tiledOf]

theorem floating_split {rect : NodeRect} {kind : SplitKind} :
    (split rect kind children).floating floats = true ↔ tiledOf floats children = [] := by
  rw [tiledOf_eq_nil, floating]
  simp

theorem tiledPanes_split (rect : NodeRect) (kind : SplitKind) (children : List LayoutTree) :
    (split rect kind children).tiledPanes floats = children.flatMap fun child => child.tiledPanes floats := by
  simp only [tiledPanes, panes]
  rw [filter_flatMap]

theorem Partitioned.of_floating {tree : LayoutTree} (h : tree.Partitioned floats)
    (hfloat : tree.floating floats = true) : tree.tiledPanes floats = [] ∧ tree.dividers floats = [] := by
  induction h with
  | pane rect id =>
    have hid : floats id = true := by simpa [floating] using hfloat
    simp [tiledPanes, panes, layoutPane, dividers, hid]
  | split rect kind children parts inside valid ih =>
    have hnone := floating_split.mp hfloat
    have hall := tiledOf_eq_nil.mp hnone
    constructor
    · rw [tiledPanes_split, flatMap_eq_nil_iff]
      exact fun child hc => (ih child hc (hall child hc)).1
    · rw [dividers, ownDividers, hnone, append_eq_nil_iff, flatMap_eq_nil_iff]
      exact ⟨fun child hc => (ih child hc (hall child hc)).2, rfl⟩

def regions (floats : PaneId → Bool) (tree : LayoutTree) : List (Set GridPoint) :=
  (tree.tiledPanes floats).map LayoutPane.region ++ (tree.dividers floats).map Divider.region

theorem regions_split_perm {rect : NodeRect} {kind : SplitKind}
    (parts : ∀ child ∈ children, child.Partitioned floats) :
    ((tiledOf floats children).flatMap (regions floats) ++
      (ownDividers floats rect kind children).map Divider.region).Perm
        ((split rect kind children).regions floats) := by
  have htiled : ∀ child ∈ children, (!child.floating floats) = false →
      child.tiledPanes floats = [] ∧ child.dividers floats = [] := by
    intro child hc hfloat
    exact (parts child hc).of_floating (by simpa using hfloat)
  have hpanes : (tiledOf floats children).flatMap
      (fun child => (child.tiledPanes floats).map LayoutPane.region) =
        ((split rect kind children).tiledPanes floats).map LayoutPane.region := by
    rw [tiledPanes_split, map_flatMap]
    exact flatMap_filter_of_nil fun child hc hf => by rw [(htiled child hc hf).1, map_nil]
  have hdividers : (tiledOf floats children).flatMap
      (fun child => (child.dividers floats).map Divider.region) =
        (children.flatMap (dividers floats)).map Divider.region := by
    rw [map_flatMap]
    exact flatMap_filter_of_nil fun child hc hf => by rw [(htiled child hc hf).2, map_nil]
  have hsplit := flatMap_append_perm (tiledOf floats children)
    (fun child => (child.tiledPanes floats).map LayoutPane.region)
    (fun child => (child.dividers floats).map Divider.region)
  rw [hpanes, hdividers] at hsplit
  rw [regions, dividers, map_append, ← append_assoc]
  exact hsplit.symm.append_right _

/-- **A tree that does not float tiles its rectangle: tiled panes and dividers are pairwise disjoint
and cover it.** -/
theorem Partitioned.tiles {tree : LayoutTree} (h : tree.Partitioned floats)
    (hfloat : tree.floating floats = false) : Tiles tree.rect.region (tree.regions floats) := by
  induction h with
  | pane rect id =>
    have hid : floats id = false := by simpa [floating] using hfloat
    have hpanes : regions floats (LayoutTree.pane rect id) = [(layoutPane rect id).region] := by
      simp [regions, tiledPanes, panes, dividers, layoutPane, hid]
    rw [hpanes]
    exact Tiles.single _
  | split rect kind children parts inside valid ih =>
    have hsome : tiledOf floats children ≠ [] := by
      intro hnone
      rw [floating_split.mpr hnone] at hfloat
      cases hfloat
    have hown := validPartition_tiles (valid.resolve_left hsome)
    rw [map_map] at hown
    have hpieces : ∀ child ∈ tiledOf floats children, Tiles child.rect.region (child.regions floats) := by
      intro child hc
      obtain ⟨hmem, htiled⟩ := mem_filter.mp hc
      exact ih child hmem (by simpa using htiled)
    have hrefined := hown.refine hpieces
    exact hrefined.perm (regions_split_perm parts)

/-- `d` is the one-cell strip between `a` and the rectangle `b` after it, as long as both. -/
def Separates (d : Divider) (a b : NodeRect) : Prop :=
  (a.span d.kind).2 + 1 = (b.span d.kind).1 ∧ a.span d.kind.flip = b.span d.kind.flip ∧
    d.region = strip d.kind ((a.span d.kind).2, (b.span d.kind).1) ∩
      strip d.kind.flip (a.span d.kind.flip)

theorem dividerBefore_separates {kind : SplitKind} {rect : NodeRect} {tiled : List NodeRect}
    (h : validPartition kind rect tiled = true) {pair : NodeRect × NodeRect}
    (hpair : pair ∈ pairs tiled) : Separates (dividerBefore kind rect pair.2) pair.1 pair.2 := by
  obtain ⟨-, hflip, hfits⟩ := validPartition_spec h
  have hmem : pair.1 ∈ tiled := (of_mem_zip hpair).1
  have hkind : (dividerBefore kind rect pair.2).kind = kind := by
    cases kind with
    | leftRight => rfl
    | topBottom => rfl
  obtain ⟨hstart, hnext⟩ := pairFits_spec (hfits pair hpair)
  have hregion := dividerBefore_region (hfits pair hpair)
  have hend : (pair.2.span kind).1 - 1 = (pair.1.span kind).2 := by omega
  rw [hend, ← hflip _ hmem] at hregion
  rw [Separates, hkind]
  exact ⟨hstart.symm, (hflip _ hmem).trans hnext.symm, hregion⟩

theorem Partitioned.separates {tree : LayoutTree} (h : tree.Partitioned floats) {d : Divider}
    (hd : d ∈ tree.dividers floats) : ∃ rect kind children, Node (.split rect kind children) tree ∧
      ∃ pair ∈ pairs ((tiledOf floats children).map LayoutTree.rect), Separates d pair.1 pair.2 := by
  induction h with
  | pane rect id => simp [dividers] at hd
  | split rect kind children parts inside valid ih =>
    rw [dividers, mem_append] at hd
    obtain hd | hd := hd
    · obtain ⟨child, hc, hd⟩ := mem_flatMap.mp hd
      obtain ⟨rect', kind', children', hnode, hsep⟩ := ih child hc hd
      exact ⟨rect', kind', children', .inside rect kind children child hc hnode, hsep⟩
    · obtain ⟨pair, hpair, rfl⟩ := mem_map.mp hd
      have hsome : tiledOf floats children ≠ [] := by
        intro hnone
        rw [hnone] at hpair
        simp [pairs] at hpair
      exact ⟨rect, kind, children, .root, pair, hpair, dividerBefore_separates (valid.resolve_left hsome) hpair⟩

/-! ## Spellings -/

def SpelledNat (n : Nat) (text : Bytes) : Prop :=
  text ≠ [] ∧ (∀ b ∈ text, isDigit b = true) ∧ digitsValue text = n

def SpelledRect (rect : NodeRect) (text : Bytes) : Prop :=
  ∃ w h x y, SpelledNat rect.width.toNat w ∧ SpelledNat rect.height.toNat h ∧
    SpelledNat rect.x.toNat x ∧ SpelledNat rect.y.toNat y ∧ rect.width ≠ 0 ∧ rect.height ≠ 0 ∧
    text = w ++ cross :: (h ++ comma :: (x ++ comma :: y))

def openOf : SplitKind → UInt8
  | .leftRight => openBrace
  | .topBottom => openBracket

def closeOf : SplitKind → UInt8
  | .leftRight => closeBrace
  | .topBottom => closeBracket

inductive Spells : LayoutTree → Bytes → Prop
  | pane (rect : NodeRect) (id : PaneId) (head digits : Bytes) (hrect : SpelledRect rect head)
      (hid : SpelledNat id.value.toNat digits) :
      Spells (.pane rect id) (head ++ comma :: digits)
  | split (rect : NodeRect) (kind : SplitKind) (children : List LayoutTree) (head : Bytes)
      (texts : List Bytes) (hrect : SpelledRect rect head) (two : 2 ≤ children.length)
      (spelled : List.Forall₂ Spells children texts) :
      Spells (.split rect kind children)
        (head ++ openOf kind :: ([comma].intercalate texts ++ [closeOf kind]))

end LayoutTree

end Lector.Layout
