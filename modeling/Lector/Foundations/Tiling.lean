import Mathlib

/-! Tilings of a set by a list of parts, how they compose, and the tiling of an interval by spans
with one-cell gaps between them. -/
namespace Lector.Tiling
open List hiding Disjoint
open Set

variable {α β ι : Type}

/-- The parts are pairwise disjoint and together make up the whole. -/
structure Tiles (whole : Set α) (parts : List (Set α)) : Prop where
  disjoint : parts.Pairwise Disjoint
  covers : ∀ x, x ∈ whole ↔ ∃ p ∈ parts, x ∈ p

namespace Tiles

variable {whole : Set α} {parts parts' : List (Set α)}

theorem single (whole : Set α) : Tiles whole [whole] := ⟨pairwise_singleton _ _, by simp⟩

theorem subset (h : Tiles whole parts) {p : Set α} (hp : p ∈ parts) : p ⊆ whole :=
  fun x hx => (h.covers x).mpr ⟨p, hp, hx⟩

theorem perm (h : Tiles whole parts) (hperm : parts.Perm parts') : Tiles whole parts' where
  disjoint := (hperm.pairwise_iff fun hd => hd.symm).mp h.disjoint
  covers x := by
    rw [h.covers]
    constructor
    · rintro ⟨p, hp, hx⟩
      exact ⟨p, hperm.mem_iff.mp hp, hx⟩
    · rintro ⟨p, hp, hx⟩
      exact ⟨p, hperm.mem_iff.mpr hp, hx⟩

theorem cons (h : Tiles whole parts) {p : Set α} (hp : Disjoint p whole) :
    Tiles (p ∪ whole) (p :: parts) where
  disjoint := pairwise_cons.mpr
    ⟨fun _ hq => hp.mono_right (h.subset hq), h.disjoint⟩
  covers x := by
    rw [mem_union, h.covers]
    simp only [mem_cons, or_and_right, exists_or, exists_eq_left]

theorem refine {xs : List ι} {part : ι → Set α} {pieces : ι → List (Set α)}
    {rest : List (Set α)} (h : Tiles whole (xs.map part ++ rest))
    (hpart : ∀ x ∈ xs, Tiles (part x) (pieces x)) : Tiles whole (xs.flatMap pieces ++ rest) := by
  obtain ⟨hmap, hrest, hcross⟩ := pairwise_append.mp h.disjoint
  have hwithin : ∀ x ∈ xs, ∀ q ∈ pieces x, q ⊆ part x := fun x hx q hq => (hpart x hx).subset hq
  constructor
  · apply pairwise_append.mpr
    refine ⟨?_, hrest, ?_⟩
    · apply pairwise_flatMap.mpr
      refine ⟨fun x hx => (hpart x hx).disjoint, ?_⟩
      have hpairs := pairwise_map.mp hmap
      apply hpairs.imp_of_mem
      intro x y hx hy hd p hp q hq
      exact hd.mono (hwithin x hx p hp) (hwithin y hy q hq)
    · intro q hq r hr
      obtain ⟨x, hx, hqx⟩ := mem_flatMap.mp hq
      exact (hcross _ (mem_map_of_mem hx) r hr).mono_left (hwithin x hx q hqx)
  · intro c
    rw [h.covers]
    constructor
    · rintro ⟨p, hp, hc⟩
      obtain hp | hp := mem_append.mp hp
      · obtain ⟨x, hx, rfl⟩ := mem_map.mp hp
        obtain ⟨q, hq, hcq⟩ := ((hpart x hx).covers c).mp hc
        exact ⟨q, mem_append_left _ (mem_flatMap.mpr ⟨x, hx, hq⟩), hcq⟩
      · exact ⟨p, mem_append_right _ hp, hc⟩
    · rintro ⟨q, hq, hc⟩
      obtain hq | hq := mem_append.mp hq
      · obtain ⟨x, hx, hqx⟩ := mem_flatMap.mp hq
        exact ⟨part x, mem_append_left _ (mem_map_of_mem hx), hwithin x hx q hqx hc⟩
      · exact ⟨q, mem_append_right _ hq, hc⟩

theorem strip (h : Tiles whole parts) (coord : β → α) (cut : Set β) : Tiles (preimage coord whole ∩ cut)
      (parts.map fun p => preimage coord p ∩ cut) where
  disjoint := by
    apply pairwise_map.mpr
    apply h.disjoint.imp
    intro p q hd
    exact (hd.preimage coord).mono inter_subset_left inter_subset_left
  covers c := by
    rw [mem_inter_iff, mem_preimage, h.covers]
    constructor
    · rintro ⟨⟨p, hp, hc⟩, hcut⟩
      exact ⟨_, mem_map_of_mem hp, hc, hcut⟩
    · rintro ⟨q, hq, hc⟩
      obtain ⟨p, hp, rfl⟩ := mem_map.mp hq
      exact ⟨⟨p, hp, hc.1⟩, hc.2⟩

theorem dropEmpty {xs : List ι} {part : ι → Set α} {keep : ι → Bool} (h : Tiles whole (xs.map part))
    (hempty : ∀ x ∈ xs, keep x = false → part x = ∅) : Tiles whole ((xs.filter keep).map part) where
  disjoint := Pairwise.sublist (filter_sublist.map part) h.disjoint
  covers c := by
    rw [h.covers]
    constructor
    · rintro ⟨p, hp, hc⟩
      obtain ⟨x, hx, rfl⟩ := mem_map.mp hp
      refine ⟨part x, mem_map_of_mem (mem_filter.mpr ⟨hx, ?_⟩), hc⟩
      by_contra hkeep
      rw [Bool.not_eq_true] at hkeep
      rw [hempty x hx hkeep] at hc
      exact hc
    · rintro ⟨p, hp, hc⟩
      obtain ⟨x, hx, rfl⟩ := mem_map.mp hp
      exact ⟨part x, mem_map_of_mem (mem_filter.mp hx).1, hc⟩

theorem diff (h : Tiles whole parts) (cut : Set α) : Tiles (whole \ cut) (parts.map (· \ cut)) :=
  h.strip id (compl cut)

theorem cutAway {κ : Type} {part : ι → Set α} {hole : κ → Set α} {cut : ι → κ → List ι} {Good : ι → Prop}
    (hgood : ∀ x k, Good x → ∀ y ∈ cut x k, Good y)
    (hcut : ∀ x k, Good x → Tiles (part x \ hole k) ((cut x k).map part)) (ks : List κ) {xs : List ι}
    (h : Tiles whole (xs.map part)) (hxs : ∀ x ∈ xs, Good x) : Tiles (whole \ {c | ∃ k ∈ ks, c ∈ hole k})
        ((ks.foldl (fun xs k => xs.flatMap (cut · k)) xs).map part) ∧
      ∀ x ∈ ks.foldl (fun xs k => xs.flatMap (cut · k)) xs, Good x := by
  induction ks generalizing whole xs with
  | nil =>
    have hnone : {c : α | ∃ k ∈ ([] : List κ), c ∈ hole k} = ∅ := by simp
    rw [hnone, sdiff_empty]
    exact ⟨h, hxs⟩
  | cons k ks ih =>
    have hparts : Tiles (whole \ hole k) ((xs.flatMap (cut · k)).map part) := by
      have hdiff := h.diff (hole k)
      rw [map_map, ← append_nil (xs.map _)] at hdiff
      have hrefined := hdiff.refine fun x hx => hcut x k (hxs x hx)
      rwa [append_nil, ← map_flatMap] at hrefined
    have hrest := ih hparts fun y hy => by
      obtain ⟨x, hx, hy⟩ := mem_flatMap.mp hy
      exact hgood x k (hxs x hx) y hy
    have hall : whole \ {c | ∃ k' ∈ k :: ks, c ∈ hole k'} =
        (whole \ hole k) \ {c | ∃ k' ∈ ks, c ∈ hole k'} := by
      ext c
      simp only [mem_sdiff, mem_ofPred_eq, mem_cons, exists_eq_or_imp, not_or, and_assoc]
    rw [hall]
    exact hrest

end Tiles

/-! ## Spans with gaps -/

/-- Half-open spans from `lo` to `hi`, each starting one cell after the end of the one before. -/
def Spaced (hi : Int) : Int → List (Int × Int) → Prop
  | _, [] => False
  | lo, [span] => span.1 = lo ∧ span.1 ≤ span.2 ∧ span.2 = hi
  | lo, span :: next :: spans => span.1 = lo ∧ span.1 ≤ span.2 ∧ Spaced hi (span.2 + 1) (next :: spans)

def cells (span : Int × Int) : Set Int := Set.Ico span.1 span.2

def gapBefore (span : Int × Int) : Set Int := {span.1 - 1}

variable {spans : List (Int × Int)}

theorem Spaced.le {hi : Int} {lo : Int} (h : Spaced hi lo spans) : lo ≤ hi := by
  induction spans generalizing lo with
  | nil => exact h.elim
  | cons span spans ih =>
    cases spans with
    | nil =>
      obtain ⟨hlo, hle, hhi⟩ := h
      omega
    | cons next spans =>
      obtain ⟨hlo, hle, hrest⟩ := h
      have hnext := ih hrest
      omega

theorem Spaced.head {hi lo : Int} {span : Int × Int} (h : Spaced hi lo (span :: spans)) : span.1 = lo := by
  cases spans with
  | nil => exact h.1
  | cons next spans => exact h.1

/-- **Spans with one-cell gaps and the gaps between them tile the interval from end to end.** -/
theorem Spaced.tiles {hi : Int} {lo : Int} (h : Spaced hi lo spans) :
    Tiles (Ico lo hi) (spans.map cells ++ spans.tail.map gapBefore) := by
  induction spans generalizing lo with
  | nil => exact h.elim
  | cons span spans ih =>
    cases spans with
    | nil =>
      obtain ⟨rfl, hle, rfl⟩ := h
      exact Tiles.single _
    | cons next spans =>
      obtain ⟨rfl, hle, hrest⟩ := h
      have hnext : next.1 = span.2 + 1 := hrest.head
      have hhi : span.2 + 1 ≤ hi := hrest.le
      have hgap := (ih hrest).cons (p := gapBefore next) (by
        rw [gapBefore, disjoint_singleton_left, mem_Ico]
        omega)
      have hspan := hgap.cons (p := cells span) (by
        rw [Set.disjoint_left]
        intro x hx
        simp only [cells, gapBefore, mem_union, mem_Ico, mem_singleton_iff] at hx ⊢
        omega)
      have hwhole : cells span ∪ (gapBefore next ∪ Ico (span.2 + 1) hi) = Ico span.1 hi := by
        ext x
        simp only [cells, gapBefore, mem_union, mem_Ico, mem_singleton_iff]
        omega
      rw [hwhole] at hspan
      apply hspan.perm
      apply Perm.cons
      have hmove : (gapBefore next :: ((cells next :: spans.map cells) ++ spans.map gapBefore)).Perm
          ((cells next :: spans.map cells) ++ gapBefore next :: spans.map gapBefore) :=
        perm_middle.symm
      exact hmove

end Lector.Tiling

/-! Painting layers over a canvas. A layer is defined on a part of the points; at every point the
topmost layer that is defined there shows, and the canvas where none is. -/
namespace Lector

variable {P C : Type} (canvas : P → C)

def paint (layers : List (P → Option C)) : P → C :=
  layers.foldl (fun canvas layer p => (layer p).getD (canvas p)) canvas

def topmost : List (P → Option C) → P → Option Nat
  | [], _ => none
  | layer :: above, p =>
    match topmost above p with
    | some i => some (i + 1)
    | none => if (layer p).isSome then some 0 else none

theorem topmost_eq_none {layers : List (P → Option C)} {p : P} :
    topmost layers p = none ↔ ∀ layer ∈ layers, layer p = none := by
  induction layers with
  | nil => simp [topmost]
  | cons layer above ih =>
    rw [topmost, List.forall_mem_cons, ← ih]
    cases topmost above p with
    | some i => simp
    | none => cases layer p with
      | none => simp
      | some c => simp

/-- **The topmost layer is defined and nothing above it is.** -/
theorem topmost_spec {layers : List (P → Option C)} {p : P} {i : Nat}
    (h : topmost layers p = some i) : (∃ layer, layers[i]? = some layer ∧ (layer p).isSome) ∧
      ∀ j layer, i < j → layers[j]? = some layer → layer p = none := by
  induction layers generalizing i with
  | nil => exact nomatch h
  | cons layer above ih =>
    rw [topmost] at h
    cases habove : topmost above p with
    | some k =>
      rw [habove, Option.some.injEq] at h
      subst h
      obtain ⟨hdefined, hnone⟩ := ih habove
      refine ⟨hdefined, fun j layer' hj hget => ?_⟩
      obtain ⟨j, rfl⟩ := Nat.exists_eq_add_of_lt (lt_of_le_of_lt (Nat.zero_le _) hj)
      rw [zero_add] at hget
      exact hnone j layer' (by omega) hget
    | none =>
      simp only [habove, Option.ite_none_right_eq_some, Option.some.injEq] at h
      obtain ⟨hdefined, rfl⟩ := h
      refine ⟨⟨layer, rfl, hdefined⟩, fun j layer' hj hget => ?_⟩
      obtain ⟨j, rfl⟩ := Nat.exists_eq_add_of_lt hj
      exact topmost_eq_none.mp habove layer' (List.mem_of_getElem? hget)

theorem paint_cons (layer : P → Option C) (above : List (P → Option C)) :
    paint canvas (layer :: above) = paint (fun p => (layer p).getD (canvas p)) above := rfl

/-- **What shows at a point.** -/
theorem paint_eq (layers : List (P → Option C)) (p : P) : paint canvas layers p =
      (((topmost layers p).bind fun i => layers[i]?).bind fun layer => layer p).getD (canvas p) := by
  induction layers generalizing canvas with
  | nil => rfl
  | cons layer above ih =>
    rw [paint_cons, ih, topmost]
    cases habove : topmost above p with
    | some i =>
      obtain ⟨⟨top, hget, hdefined⟩, -⟩ := topmost_spec habove
      obtain ⟨c, hc⟩ := Option.isSome_iff_exists.mp hdefined
      simp [hget, hc]
    | none =>
      cases hlayer : layer p with
      | none => simp
      | some c => simp [hlayer]

theorem paint_congr {canvas canvas' : P → C} {p : P} (same : canvas p = canvas' p)
    (layers : List (P → Option C)) : paint canvas layers p = paint canvas' layers p := by
  rw [paint_eq, paint_eq, same]

end Lector
