import Lector.Foundations.Tiling
import Lector.Presentation.Scene

/-! Composition is painting: every cell of a composed scene is the one of the topmost surface that
covers it. -/
namespace Lector.Presentation
open Output Terminal List Option

/-! ## Places -/

def itemAt {α : Type} (items : List α) (i : Int) : Option α :=
  if 0 ≤ i then items[i.toNat]? else none

theorem itemAt_nil {α : Type} (i : Int) : itemAt ([] : List α) i = none := by
  simp [itemAt]

theorem itemAt_cons {α : Type} (item : α) (rest : List α) (i : Int) :
    itemAt (item :: rest) i = if i = 0 then some item else itemAt rest (i - 1) := by
  rcases Int.lt_trichotomy i 0 with hneg | rfl | hpos
  · rw [itemAt, if_neg (by omega), if_neg (by omega), itemAt, if_neg (by omega)]
  · rfl
  · obtain ⟨n, rfl⟩ : ∃ n : Nat, i = n + 1 := ⟨(i - 1).toNat, by omega⟩
    rw [itemAt, if_pos (by omega), if_neg (by omega), itemAt, if_pos (by omega)]
    have hnext : ((n : Int) + 1).toNat = n + 1 := by omega
    have hsame : ((n : Int) + 1 - 1).toNat = n := by omega
    rw [hnext, hsame, getElem?_cons_succ]

theorem itemAt_natCast {α : Type} (items : List α) (n : Nat) : itemAt items (n : Int) = items[n]? := by
  rw [itemAt, if_pos (by omega), Int.toNat_natCast]

theorem itemAt_mem {α : Type} {items : List α} {i : Int} {item : α} (h : itemAt items i = some item) :
    item ∈ items := by
  rw [itemAt, ite_none_right_eq_some] at h
  exact mem_of_getElem? h.2

theorem saturatingAddI32_inside {limit : Nat} (hlimit : limit ≤ 2 ^ 16) (a b : Int) :
    (0 ≤ saturatingAddI32 a b ∧ saturatingAddI32 a b < limit ↔ 0 ≤ a + b ∧ a + b < limit) ∧
      (0 ≤ a + b ∧ a + b < limit → saturatingAddI32 a b = a + b) := by
  simp only [saturatingAddI32, i32Max]
  omega

/-! ## One loop -/

variable {α β : Type}

/-- **A loop draws each item at its place**, and changes nothing elsewhere. -/
theorem blitFrom_spec {limit : Nat} (hlimit : limit ≤ 2 ^ 16) (origin : Int)
    (draw : α → β → Option β) (fits : β → Prop) {items : List α}
    (draws : ∀ item ∈ items, ∀ current, fits current → ∃ drawn, draw item current = some drawn ∧
      fits drawn) (index : Nat) (room : index + items.length ≤ 2 ^ 16) (target : List β)
    (length : target.length = limit) (whole : ∀ x ∈ target, fits x) :
    ∃ target', blitFrom limit origin draw index items target = some target' ∧
      target'.length = limit ∧ (∀ x ∈ target', fits x) ∧
      ∀ n : Nat, n < limit → target'[n]? =
        match itemAt items (n - origin - index) with
        | some item => target[n]?.bind (draw item)
        | none => target[n]? := by
  induction items generalizing index target with
  | nil =>
    refine ⟨target, rfl, length, whole, fun n _ => ?_⟩
    rw [itemAt_nil]
  | cons item rest ih =>
    have hfirst : ¬ i32Max < (index : Int) := by
      simp only [i32Max]
      omega
    have hroom : index + 1 + rest.length ≤ 2 ^ 16 := by
      rw [length_cons] at room
      omega
    have hdraws := fun item' (hmem : item' ∈ rest) => draws item' (mem_cons_of_mem _ hmem)
    obtain ⟨hinside, hexact⟩ := saturatingAddI32_inside hlimit origin index
    have hstep : ∀ n : Nat, (n : Int) - origin - index - 1 = n - origin - ((index + 1 : Nat) : Int) := by
      omega
    rw [blitFrom, if_neg hfirst]
    dsimp only
    split
    · obtain ⟨target', hrest, hlength, hwhole, hcells⟩ := ih hdraws (index + 1) hroom target length whole
      refine ⟨target', hrest, hlength, hwhole, fun n hn => ?_⟩
      have helsewhere : (n : Int) - origin - index ≠ 0 := by omega
      rw [hcells n hn, itemAt_cons, if_neg helsewhere, hstep n]
    · have hbounds : (saturatingAddI32 origin index).toNat < target.length := by omega
      have hcurrent := getElem?_eq_getElem hbounds
      obtain ⟨drawn, hdrawn, hfits⟩ := draws item mem_cons_self _ (whole _ (getElem_mem hbounds))
      have hset : ∀ x ∈ target.set (saturatingAddI32 origin index).toNat drawn, fits x := by
        intro x hx
        rcases mem_or_eq_of_mem_set hx with hold | rfl
        · exact whole x hold
        · exact hfits
      obtain ⟨target', hrest, hlength, hwhole, hcells⟩ :=
        ih hdraws (index + 1) hroom (target.set (saturatingAddI32 origin index).toNat drawn)
          (by rw [length_set, length]) hset
      refine ⟨target', ?_, hlength, hwhole, fun n hn => ?_⟩
      · simp only [hcurrent, hdrawn, bind_eq_bind, bind_some]
        exact hrest
      · rw [hcells n hn, itemAt_cons, ← hstep n]
        by_cases hhere : (n : Int) - origin - index = 0
        · have hn' : (saturatingAddI32 origin index).toNat = n := by omega
          rw [hhere, ← hn', getElem?_set_self hbounds, hcurrent]
          exact hdrawn.symm
        · have hn' : (saturatingAddI32 origin index).toNat ≠ n := by omega
          rw [if_neg hhere, getElem?_set_ne hn']

theorem blitFrom_covers {limit : Nat} (hlimit : limit ≤ 2 ^ 16) (draw : α → α → Option α)
    (fits : α → Prop) {items : List α} (covers : items.length = limit)
    (draws : ∀ item ∈ items, ∀ current, fits current → draw item current = some item ∧ fits item)
    {target : List α} (length : target.length = limit) (whole : ∀ x ∈ target, fits x) :
    blitFrom limit 0 draw 0 items target = some items := by
  obtain ⟨target', hblit, hlength, -, hcells⟩ := blitFrom_spec hlimit 0 draw fits
    (fun item hmem current hfits => ⟨item, draws item hmem current hfits⟩) 0 (by omega) target length
    whole
  have hsame : target' = items := by
    refine ext_getElem (hlength.trans covers.symm) fun n hn hn' => ?_
    have hbounds : n < target.length := by omega
    have hzero : (n : Int) - 0 - (0 : Nat) = n := by omega
    have hcell := hcells n (by omega)
    rw [hzero, itemAt_natCast, getElem?_eq_getElem hn', getElem?_eq_getElem hbounds,
      getElem?_eq_getElem hn] at hcell
    rw [← some.injEq, hcell]
    exact (draws _ (getElem_mem hn') _ (whole _ (getElem_mem hbounds))).1
  rw [hblit, hsame]

/-! ## Cells of a grid -/

variable (geometry : TerminalGeometry)

def Sized (rows : List Row) : Prop :=
  rows.length = geometry.rows.toNat ∧ ∀ row ∈ rows, row.cells.length = geometry.cols.toNat

def gridCell (rows : List Row) (p : Nat × Nat) : Cell :=
  ((rows[p.1]?).bind fun row => row.cells[p.2]?).getD .default

def Inside (p : Nat × Nat) : Prop :=
  p.1 < geometry.rows.toNat ∧ p.2 < geometry.cols.toNat

instance (geometry : TerminalGeometry) (p : Nat × Nat) : Decidable (Inside geometry p) :=
  inferInstanceAs (Decidable (_ ∧ _))

theorem toNat_le (n : UInt16) : n.toNat ≤ 2 ^ 16 := n.toNat_lt.le

theorem blankRows_sized : Sized geometry (blankRows geometry) := by
  refine ⟨length_replicate, fun row hmem => ?_⟩
  rw [eq_of_mem_replicate hmem]
  exact length_replicate

theorem gridCell_blankRows (p : Nat × Nat) : gridCell (blankRows geometry) p = .default := by
  rw [gridCell, blankRows, getElem?_replicate]
  split
  · rw [bind_some, blankRow, getElem?_replicate]
    split <;> rfl
  · rfl

namespace SceneSurface

variable (surface : SceneSurface)

def WellSized : Prop := Sized surface.snapshot.geometry surface.snapshot.rows

def Covers (p : Nat × Nat) : Prop :=
  (surface.origin.row ≤ p.1 ∧ p.1 < surface.origin.row + surface.snapshot.geometry.rows.toNat) ∧
    surface.origin.col ≤ p.2 ∧ p.2 < surface.origin.col + surface.snapshot.geometry.cols.toNat

instance (surface : SceneSurface) (p : Nat × Nat) : Decidable (surface.Covers p) :=
  inferInstanceAs (Decidable ((_ ∧ _) ∧ _))

def cellAt (p : Nat × Nat) : Option Cell :=
  (itemAt surface.snapshot.rows (p.1 - surface.origin.row)).bind fun source =>
    itemAt source.cells (p.2 - surface.origin.col)

end SceneSurface

theorem itemAt_isSome (items : List α) (i : Int) : (itemAt items i).isSome ↔ 0 ≤ i ∧ i < items.length := by
  by_cases hneg : 0 ≤ i
  · rw [itemAt, if_pos hneg, isSome_getElem?]
    omega
  · rw [itemAt, if_neg hneg]
    exact ⟨fun h => Bool.noConfusion h, fun h => absurd h.1 hneg⟩

variable {surface : SceneSurface}

theorem SceneSurface.WellSized.cellAt_isSome (sized : surface.WellSized)
    (p : Nat × Nat) : (surface.cellAt p).isSome ↔ surface.Covers p := by
  obtain ⟨hrows, hcols⟩ := sized
  have hrow := itemAt_isSome surface.snapshot.rows (p.1 - surface.origin.row)
  rw [SceneSurface.cellAt, SceneSurface.Covers]
  cases hsource : itemAt surface.snapshot.rows (p.1 - surface.origin.row) with
  | none =>
    rw [hsource] at hrow
    have hout := hrow.not.mp Bool.false_ne_true
    exact ⟨fun h => Bool.noConfusion h, fun h => absurd (by omega) hout⟩
  | some source =>
    rw [hsource] at hrow
    have hin := hrow.mp rfl
    have hwide := hcols source (itemAt_mem hsource)
    rw [bind_some, itemAt_isSome]
    omega

/-! ## Painting -/

variable {geometry : TerminalGeometry}

theorem blitRow_spec (surface : SceneSurface) {source target : Row}
    (room : source.cells.length ≤ 2 ^ 16) (length : target.cells.length = geometry.cols.toNat) :
    ∃ drawn, blitRow geometry.cols.toNat surface source target = some drawn ∧
      drawn.cells.length = geometry.cols.toNat ∧
      ∀ n : Nat, n < geometry.cols.toNat →
        drawn.cells[n]? = (itemAt source.cells (n - surface.origin.col)).or target.cells[n]? := by
  obtain ⟨cells, hblit, hlength, -, hcells⟩ := blitFrom_spec (toNat_le geometry.cols)
    surface.origin.col (fun cell (_ : Cell) => some cell) (fun _ => True)
    (fun cell _ _ _ => ⟨cell, rfl, trivial⟩) 0 (by rwa [zero_add]) target.cells length
    (fun _ _ => trivial)
  refine ⟨⟨cells, if spans geometry.cols.toNat surface then source.wrapped else target.wrapped⟩, ?_,
    hlength, fun n hn => ?_⟩
  · rw [blitRow, hblit]
    rfl
  · have hzero : (n : Int) - surface.origin.col - (0 : Nat) = n - surface.origin.col := by omega
    have hcurrent := getElem?_eq_getElem (length.symm ▸ hn : n < target.cells.length)
    rw [hcells n hn, hzero, hcurrent]
    cases itemAt source.cells (n - surface.origin.col) with
    | none => rfl
    | some cell => rfl

/-- **One surface over a grid.** -/
theorem blitSurface_spec (wellSized : surface.WellSized) {target : List Row} (sized : Sized geometry target) :
    ∃ target', blitSurface geometry target surface = some target' ∧ Sized geometry target' ∧
      ∀ p, Inside geometry p → gridCell target' p = (surface.cellAt p).getD (gridCell target p) := by
  have hroom : ∀ source ∈ surface.snapshot.rows, source.cells.length ≤ 2 ^ 16 := by
    intro source hmem
    rw [wellSized.2 source hmem]
    exact toNat_le _
  have hdraws : ∀ source ∈ surface.snapshot.rows, ∀ current : Row,
      current.cells.length = geometry.cols.toNat →
      ∃ drawn, blitRow geometry.cols.toNat surface source current = some drawn ∧
        drawn.cells.length = geometry.cols.toNat := by
    intro source hmem current hcurrent
    obtain ⟨drawn, hdrawn, hlength, -⟩ := blitRow_spec surface (hroom source hmem) hcurrent
    exact ⟨drawn, hdrawn, hlength⟩
  obtain ⟨target', hblit, hlength, hwhole, hrows⟩ := blitFrom_spec (toNat_le geometry.rows)
    surface.origin.row (blitRow geometry.cols.toNat surface)
    (fun row => row.cells.length = geometry.cols.toNat) hdraws 0
    (by rw [zero_add, wellSized.1]; exact toNat_le _) target sized.1 sized.2
  refine ⟨target', hblit, ⟨hlength, hwhole⟩, fun p hp => ?_⟩
  have hzero : (p.1 : Int) - surface.origin.row - (0 : Nat) = p.1 - surface.origin.row := by omega
  have hbounds : p.1 < target.length := by
    rw [sized.1]
    exact hp.1
  have hcurrent := getElem?_eq_getElem hbounds
  have hwide := sized.2 _ (getElem_mem hbounds)
  rw [gridCell, gridCell, hrows p.1 hp.1, hzero, SceneSurface.cellAt, hcurrent]
  cases hsource : itemAt surface.snapshot.rows (p.1 - surface.origin.row) with
  | none => rfl
  | some source =>
    obtain ⟨drawn, hdrawn, -, hcells⟩ := blitRow_spec surface (hroom source (itemAt_mem hsource)) hwide
    simp only [bind_some, hdrawn, hcells p.2 hp.2]
    cases itemAt source.cells (p.2 - surface.origin.col) with
    | none => rfl
    | some cell => rfl

/-- **Blitting is painting**, and never leaves the grid. -/
theorem blitSurfaces_spec {surfaces : List SceneSurface} (wellSized : ∀ surface ∈ surfaces, surface.WellSized)
    {target : List Row} (sized : Sized geometry target) :
    ∃ target', blitSurfaces geometry target surfaces = some target' ∧ Sized geometry target' ∧
      ∀ p, Inside geometry p →
        gridCell target' p = paint (gridCell target) (surfaces.map SceneSurface.cellAt) p := by
  induction surfaces generalizing target with
  | nil => exact ⟨target, rfl, sized, fun _ _ => rfl⟩
  | cons surface rest ih =>
    obtain ⟨first, hfirst, hsized, hcells⟩ := blitSurface_spec (wellSized surface mem_cons_self) sized
    obtain ⟨target', hrest, hsized', hcells'⟩ :=
      ih (fun surface' hmem => wellSized surface' (mem_cons_of_mem _ hmem)) hsized
    refine ⟨target', ?_, hsized', fun p hp => ?_⟩
    · simp only [blitSurfaces, foldlM_cons, hfirst]
      exact hrest
    · rw [hcells' p hp]
      exact paint_congr (hcells p hp) _

theorem blitSurfaces_append (geometry : TerminalGeometry) (target : List Row)
    (surfaces more : List SceneSurface) : blitSurfaces geometry target (surfaces ++ more) =
      (blitSurfaces geometry target surfaces).bind fun rows => blitSurfaces geometry rows more :=
  foldlM_append ..

/-! ## The fast path -/

theorem blitSurface_covers (wellSized : surface.WellSized) (origin : surface.origin = ⟨0, 0⟩)
    (same : surface.snapshot.geometry = geometry) {target : List Row} (sized : Sized geometry target) :
    blitSurface geometry target surface = some surface.snapshot.rows := by
  obtain ⟨hrows, hcols⟩ := wellSized
  rw [same] at hrows hcols
  have hspans : spans geometry.cols.toNat surface = true := by
    have hcols' := toNat_le geometry.cols
    rw [spans, origin, same, Bool.and_eq_true, decide_eq_true_eq, decide_eq_true_eq]
    simp only [saturatingAddI32, i32Max]
    omega
  have hrow : ∀ source ∈ surface.snapshot.rows, ∀ current : Row, current.cells.length = geometry.cols.toNat →
      blitRow geometry.cols.toNat surface source current = some source ∧
        source.cells.length = geometry.cols.toNat := by
    intro source hmem current hcurrent
    have hcells :=
      blitFrom_covers (toNat_le geometry.cols) _ (fun _ => True) (hcols source hmem)
        (fun _ _ _ _ => ⟨rfl, trivial⟩) hcurrent (fun _ _ => trivial)
    refine ⟨?_, hcols source hmem⟩
    rw [blitRow, origin, hcells, hspans]
    rfl
  rw [blitSurface, origin]
  exact blitFrom_covers (toNat_le geometry.rows) _ (fun row => row.cells.length = geometry.cols.toNat)
    hrows hrow sized.1 sized.2

end Lector.Presentation
