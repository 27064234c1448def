import Lector.Presentation.Compose

/-! Painter's order: overlays lie above panes, overlays by `z_index` and then by insertion, and later
panes above earlier ones. -/
namespace Lector.Presentation
open Output Terminal List
open Option hiding map_map mem_map mem_map_of_mem

/-! ## Layers -/

/-- A surface of a scene, by its place among the panes or among the overlays. -/
inductive Layer
  | pane (i : Nat)
  | overlay (i : Nat)
deriving DecidableEq

namespace Layer

def surface (scene : Scene) : Layer → Option SceneSurface
  | pane i => scene.panes[i]?
  | overlay i => scene.overlays[i]?.map (·.surface)

def Below (scene : Scene) : Layer → Layer → Prop
  | pane i, pane j => i < j
  | pane _, overlay _ => True
  | overlay _, pane _ => False
  | overlay i, overlay j => ∃ a b, scene.overlays[i]? = some a ∧ scene.overlays[j]? = some b ∧
      (a.zIndex < b.zIndex ∨ a.zIndex = b.zIndex ∧ i < j)

theorem below_asymm {scene : Scene} {a b : Layer} (hab : a.Below scene b) : ¬ b.Below scene a := by
  intro hba
  cases a with
  | pane i =>
    cases b with
    | pane j => exact lt_asymm hab hba
    | overlay j => exact hba
  | overlay i =>
    cases b with
    | pane j => exact hab
    | overlay j =>
      obtain ⟨a, b, ha, hb, hlt⟩ := hab
      obtain ⟨b', a', hb', ha', hgt⟩ := hba
      rw [ha, some.injEq] at ha'
      rw [hb, some.injEq] at hb'
      subst ha' hb'
      omega

def Covers (scene : Scene) (p : Nat × Nat) (layer : Layer) : Prop :=
  ∃ surface, layer.surface scene = some surface ∧ surface.Covers p

/-- The layer covers the point, and all others that do lie below it. -/
structure Top (scene : Scene) (p : Nat × Nat) (layer : Layer) : Prop where
  covers : layer.Covers scene p
  below : ∀ other : Layer, other.Covers scene p → other = layer ∨ other.Below scene layer

end Layer

namespace Scene

variable (scene : Scene)

/-- What shows at a point: the topmost layer there, or none where no layer covers it. -/
def Shows (p : Nat × Nat) : Option Layer → Prop
  | some layer => layer.Top scene p
  | none => ∀ layer : Layer, ¬ layer.Covers scene p

def shownCell (p : Nat × Nat) (shown : Option Layer) : Cell :=
  ((shown.bind (·.surface scene)).bind (·.cellAt p)).getD .default

variable {scene}

theorem Shows.unique {p : Nat × Nat} {a b : Option Layer} (ha : scene.Shows p a)
    (hb : scene.Shows p b) : a = b := by
  cases a with
  | none =>
    cases b with
    | none => rfl
    | some b => exact absurd hb.covers (ha b)
  | some a =>
    cases b with
    | none => exact absurd ha.covers (hb a)
    | some b =>
      rcases ha.below b hb.covers with rfl | hba
      · rfl
      · rcases hb.below a ha.covers with rfl | hab
        · rfl
        · exact absurd hab (Layer.below_asymm hba)

/-! ## The drawing order -/

variable (scene)

def surfaces : List SceneSurface := scene.panes ++ scene.sortedOverlays.map (·.1.surface)

def layers : List Layer := (List.range scene.panes.length).map .pane ++ scene.sortedOverlays.map (.overlay ·.2)

theorem mem_sortedOverlays {overlay : SceneOverlay × Nat} :
    overlay ∈ scene.sortedOverlays ↔ scene.overlays[overlay.2]? = some overlay.1 := by
  rw [sortedOverlays, mem_mergeSort, mem_zipIdx_iff_getElem?]

theorem layers_surface : scene.layers.map (Layer.surface scene) = scene.surfaces.map some := by
  rw [layers, surfaces, map_append, map_append, map_map, map_map, map_map]
  congr 1
  · refine ext_getElem (by rw [length_map, length_map, length_range]) fun i hi _ => ?_
    rw [length_map, length_range] at hi
    rw [getElem_map, getElem_map, getElem_range]
    exact getElem?_eq_getElem hi
  · refine map_congr_left fun overlay hmem => ?_
    have hget := scene.mem_sortedOverlays.mp hmem
    simp only [Function.comp_apply, Layer.surface, hget, map_some]

theorem mem_layers {layer : Layer} : layer ∈ scene.layers ↔ (layer.surface scene).isSome := by
  rw [layers, mem_append, mem_map, mem_map]
  cases layer with
  | pane i =>
    simp only [Layer.surface, Layer.pane.injEq, exists_eq_right, mem_range, isSome_getElem?,
      reduceCtorEq, and_false, exists_false, or_false]
  | overlay i =>
    simp only [Layer.surface, Layer.overlay.injEq, isSome_map, mem_sortedOverlays, reduceCtorEq,
      and_false, exists_false, false_or]
    constructor
    · rintro ⟨overlay, hget, rfl⟩
      rw [hget]
      rfl
    · intro hsome
      obtain ⟨overlay, hget⟩ := isSome_iff_exists.mp hsome
      exact ⟨(overlay, i), hget, rfl⟩

/-- **Layers are drawn from the bottom to the top.** -/
theorem layers_pairwise : scene.layers.Pairwise (Layer.Below scene) := by
  have hle : scene.sortedOverlays.Pairwise fun a b => overlayLe a b = true := by
    refine pairwise_mergeSort (fun a b c => ?_) (fun a b => ?_) _
    · simp only [overlayLe, Bool.or_eq_true, Bool.and_eq_true, decide_eq_true_eq, beq_iff_eq]
      omega
    · simp only [overlayLe, Bool.or_eq_true, Bool.and_eq_true, decide_eq_true_eq, beq_iff_eq]
      omega
  have hne : scene.sortedOverlays.Pairwise fun a b => a.2 ≠ b.2 := by
    rw [← pairwise_map]
    exact ((mergeSort_perm _ _).map Prod.snd).nodup_iff.mpr (nodup_zipIdx_map_snd _)
  rw [layers, pairwise_append, pairwise_map, pairwise_map]
  refine ⟨pairwise_lt_range, ?_, ?_⟩
  · refine (hle.and hne).imp_of_mem fun {a b} ha hb hab => ?_
    obtain ⟨hle, hplaces⟩ := hab
    refine ⟨a.1, b.1, scene.mem_sortedOverlays.mp ha, scene.mem_sortedOverlays.mp hb, ?_⟩
    simp only [overlayLe, Bool.or_eq_true, Bool.and_eq_true, decide_eq_true_eq, beq_iff_eq] at hle
    omega
  · intro a ha b hb
    obtain ⟨-, -, rfl⟩ := mem_map.mp ha
    obtain ⟨-, -, rfl⟩ := mem_map.mp hb
    trivial

/-- The snapshots of the scene are as large as their geometries say. -/
def WellSized : Prop :=
  (∀ surface ∈ scene.panes, surface.WellSized) ∧ ∀ overlay ∈ scene.overlays, overlay.surface.WellSized

variable {scene}

variable {surface : SceneSurface}

theorem WellSized.layer (wellSized : scene.WellSized) {layer : Layer}
    (h : layer.surface scene = some surface) : surface.WellSized := by
  cases layer with
  | pane i => exact wellSized.1 surface (mem_of_getElem? h)
  | overlay i =>
    obtain ⟨overlay, hget, rfl⟩ := map_eq_some_iff.mp h
    exact wellSized.2 overlay (mem_of_getElem? hget)

theorem surface_layer {i : Nat} (h : scene.surfaces[i]? = some surface) :
    ∃ layer, scene.layers[i]? = some layer ∧ layer.surface scene = some surface := by
  have hmap := congrArg (·[i]?) scene.layers_surface
  simp only [getElem?_map, h] at hmap
  exact map_eq_some_iff.mp hmap

theorem layer_surface {i : Nat} {layer : Layer} (h : scene.layers[i]? = some layer)
    (hsurface : layer.surface scene = some surface) : scene.surfaces[i]? = some surface := by
  have hmap := congrArg (·[i]?) scene.layers_surface
  simp only [getElem?_map, h, map_some, hsurface] at hmap
  obtain ⟨surface', hget, hsame⟩ := map_eq_some_iff.mp hmap.symm
  rw [hget, some.inj hsame]

section

variable (wellSized : scene.WellSized)
include wellSized

theorem WellSized.surfaces : ∀ surface ∈ scene.surfaces, surface.WellSized := by
  intro surface hmem
  obtain ⟨i, hget⟩ := getElem?_of_mem hmem
  obtain ⟨layer, -, hsurface⟩ := surface_layer hget
  exact wellSized.layer hsurface

/-- **The topmost painted surface** is the top layer. -/
theorem WellSized.top_of_topmost {p : Nat × Nat} {i : Nat}
    (h : topmost (scene.surfaces.map SceneSurface.cellAt) p = some i) :
    ∃ (layer : Layer) (surface : SceneSurface), scene.surfaces[i]? = some surface ∧
      layer.surface scene = some surface ∧ layer.Top scene p := by
  obtain ⟨⟨cellAt, hcellAt, hdefined⟩, habove⟩ := topmost_spec h
  rw [getElem?_map] at hcellAt
  obtain ⟨surface, hget, rfl⟩ := map_eq_some_iff.mp hcellAt
  obtain ⟨layer, hlayer, hsurface⟩ := surface_layer hget
  have hcovers := ((wellSized.layer hsurface).cellAt_isSome p).mp hdefined
  refine ⟨layer, surface, hget, hsurface, ⟨surface, hsurface, hcovers⟩, ?_⟩
  rintro other ⟨surface', hsurface', hcovers'⟩
  obtain ⟨j, hother⟩ := getElem?_of_mem (scene.mem_layers.mpr (by rw [hsurface']; rfl))
  have hdefined' := ((wellSized.layer hsurface').cellAt_isSome p).mpr hcovers'
  rcases lt_trichotomy i j with hlt | rfl | hgt
  · have hpainted : (scene.surfaces.map SceneSurface.cellAt)[j]? = some surface'.cellAt := by
      rw [getElem?_map, layer_surface hother hsurface', map_some]
    have hnone := habove j surface'.cellAt hlt hpainted
    rw [hnone] at hdefined'
    cases hdefined'
  · exact .inl (some.inj (hother.symm.trans hlayer))
  · obtain ⟨hi, hlayer⟩ := List.getElem?_eq_some_iff.mp hlayer
    obtain ⟨hj, hother⟩ := List.getElem?_eq_some_iff.mp hother
    have hbelow := pairwise_iff_getElem.mp scene.layers_pairwise j i hj hi hgt
    rw [hother, hlayer] at hbelow
    exact .inr hbelow

theorem WellSized.uncovered_of_topmost {p : Nat × Nat}
    (h : topmost (scene.surfaces.map SceneSurface.cellAt) p = none) (layer : Layer) :
    ¬ layer.Covers scene p := by
  rintro ⟨surface, hsurface, hcovers⟩
  obtain ⟨i, hlayer⟩ := getElem?_of_mem (scene.mem_layers.mpr (by rw [hsurface]; rfl))
  have hnone := topmost_eq_none.mp h surface.cellAt
    (mem_map_of_mem (mem_of_getElem? (layer_surface hlayer hsurface)))
  have hdefined := ((wellSized.layer hsurface).cellAt_isSome p).mpr hcovers
  rw [hnone] at hdefined
  cases hdefined

/-- **What is painted is what shows.** -/
theorem WellSized.shows (p : Nat × Nat) : ∃ shown, scene.Shows p shown ∧
      paint (fun _ => .default) (scene.surfaces.map SceneSurface.cellAt) p = scene.shownCell p shown := by
  rw [paint_eq]
  cases h : topmost (scene.surfaces.map SceneSurface.cellAt) p with
  | none => exact ⟨none, wellSized.uncovered_of_topmost h, rfl⟩
  | some i =>
    obtain ⟨layer, surface, hget, hsurface, htop⟩ := wellSized.top_of_topmost h
    refine ⟨some layer, htop, ?_⟩
    rw [shownCell, bind_some, bind_some, hsurface, getElem?_map, hget]
    rfl

end

/-! ## The general path -/

def composeGeneral (scene : Scene) : Option PresentedScene :=
  (blitSurfaces scene.geometry (blankRows scene.geometry) scene.surfaces).map
    (PresentedScene.around scene)

/-- **The fast path draws what the general path draws.** -/
theorem WellSized.composeRows_eq (wellSized : scene.WellSized) :
    scene.composeRows = blitSurfaces scene.geometry (blankRows scene.geometry) scene.surfaces := by
  have hpanes : scene.paneRows = blitSurfaces scene.geometry (blankRows scene.geometry) scene.panes := by
    rw [paneRows]
    split
    · rename_i hcovers
      rw [firstCoversScene, Option.any_eq_true] at hcovers
      obtain ⟨first, hfirst, hwhole⟩ := hcovers
      simp only [Bool.and_eq_true, decide_eq_true_eq] at hwhole
      obtain ⟨⟨horigin, hsame⟩, -⟩ := hwhole
      obtain ⟨rest, hpanes⟩ := head?_eq_some_iff.mp hfirst
      have hsized := wellSized.1 first (hpanes ▸ mem_cons_self)
      rw [hpanes, blitSurfaces, blitSurfaces, foldlM_cons,
        blitSurface_covers hsized horigin hsame (blankRows_sized _)]
      rfl
    · rfl
  rw [composeRows, hpanes, Scene.surfaces, blitSurfaces_append]
  rfl

theorem WellSized.composeRows_spec (wellSized : scene.WellSized) :
    ∃ rows, scene.composeRows = some rows ∧ Sized scene.geometry rows ∧ ∀ p, Inside scene.geometry p →
        ∃ shown, scene.Shows p shown ∧ gridCell rows p = scene.shownCell p shown := by
  obtain ⟨rows, hrows, hsized, hcells⟩ := blitSurfaces_spec wellSized.surfaces (blankRows_sized scene.geometry)
  refine ⟨rows, wellSized.composeRows_eq.trans hrows, hsized, fun p hp => ?_⟩
  obtain ⟨shown, hshown, hpaint⟩ := wellSized.shows p
  refine ⟨shown, hshown, ?_⟩
  rw [hcells p hp, ← hpaint]
  exact paint_congr (gridCell_blankRows scene.geometry p) _

end Scene

namespace PresentedScene

theorem around_rows (scene : Scene) (rows : List Row) : (around scene rows).rows = rows := by
  rw [around]
  cases scene.cursorSurface <;> rfl

/-- **Every cell of a composed scene** is the one of the topmost surface that covers it, and blank where
none does; the fast path composes what the general path composes. -/
theorem compose_painters_order (scene : Scene) (wellSized : scene.WellSized) :
    compose scene = scene.composeGeneral ∧
      ∃ presented, compose scene = some presented ∧ Sized scene.geometry presented.rows ∧
        ∀ p, Inside scene.geometry p → ∃ shown, scene.Shows p shown ∧
          gridCell presented.rows p = scene.shownCell p shown := by
  obtain ⟨rows, hrows, hsized, hcells⟩ := wellSized.composeRows_spec
  refine ⟨?_, around scene rows, ?_, ?_, ?_⟩
  · rw [compose, wellSized.composeRows_eq, Scene.composeGeneral]
  · rw [compose, hrows, map_some]
  · rw [around_rows]
    exact hsized
  · rw [around_rows]
    exact hcells

end PresentedScene

/-! ### A floating pane over wide glyphs -/

def narrow (grapheme : String) : Cell := ⟨grapheme, 1, false, .default, none⟩

def wide (grapheme : String) : List Cell :=
  [⟨grapheme, 2, false, .default, none⟩, ⟨"", 0, true, .default, none⟩]

def lineAt (id : SurfaceId) (col : Int) (cells : List Cell) : SceneSurface where
  id := id
  origin := ⟨0, col⟩
  snapshot :=
    { rows := [⟨cells, false⟩]
      scrollback := []
      cursor := .default
      geometry := ⟨1, .ofNat cells.length, 0, 0⟩
      screen := .primary
      modes := .default
      title := none
      workingDirectory := none
      historyOrigin := 0
      scrollbackExtent := 0
      viewport := .live }

def floatingScene (col : Int) : Scene where
  geometry := ⟨1, 4, 0, 0⟩
  panes := [lineAt ⟨0⟩ 0 (wide "漢" ++ wide "字"), lineAt ⟨1⟩ col [narrow "x", narrow "y"]]
  overlays := []
  cursorOwner := .hidden
  effects := ⟨none, none, 0⟩

theorem floatingScene_wellSized (col : Int) : (floatingScene col).WellSized := by
  refine ⟨fun surface hmem => ?_, forall_mem_nil _⟩
  rcases mem_pair.mp hmem with rfl | rfl
  · exact ⟨rfl, fun row hrow => by rw [mem_singleton.mp hrow]; rfl⟩
  · exact ⟨rfl, fun row hrow => by rw [mem_singleton.mp hrow]; rfl⟩

theorem floatingScene_shows : (floatingScene (-1)).Shows (0, 0) (some (.pane 1)) := by
  refine ⟨⟨_, rfl, by decide⟩, ?_⟩
  rintro other ⟨surface, hsurface, -⟩
  match other with
  | .pane 0 => exact .inr zero_lt_one
  | .pane 1 => exact .inl rfl
  | .pane (i + 2) => exact absurd hsurface (some_ne_none surface).symm
  | .overlay i => exact absurd hsurface (some_ne_none surface).symm

theorem compose_painters_order_floating : ∃ presented,
    PresentedScene.compose (floatingScene (-1)) = some presented ∧
      gridCell presented.rows (0, 0) = narrow "y" := by
  obtain ⟨-, presented, hcompose, -, hcells⟩ :=
    PresentedScene.compose_painters_order _ (floatingScene_wellSized (-1))
  obtain ⟨shown, hshown, hcell⟩ := hcells (0, 0) (by decide)
  rw [hshown.unique floatingScene_shows] at hcell
  exact ⟨presented, hcompose, hcell⟩

end Lector.Presentation
