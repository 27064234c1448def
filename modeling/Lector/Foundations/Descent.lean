import Mathlib.Data.List.Nodup
import Mathlib.Logic.Relation

/-! Collecting what lies below a node, children before parents, by a recursion over a list of children.
The recursion runs on fuel; `Shallow` tells how much a node needs. -/
namespace Lector.Descent
open Relation List

variable {α : Type} (children : α → List α)

/-- The children of `x`, each behind all that lies below it, after `output`. -/
def collect : Nat → α → List α → Option (List α)
  | 0, _, _ => none
  | fuel + 1, x, output =>
    (children x).foldlM (fun output child => (collect fuel child output).map (· ++ [child])) output

def Child (child parent : α) : Prop := child ∈ children parent

def Below (x y : α) : Prop := TransGen (Child children) x y

def AtOrBelow (x y : α) : Prop := ReflTransGen (Child children) x y

/-- Less than `n` nodes on every way down from the node, itself among them. -/
def Shallow : Nat → α → Prop
  | 0, _ => False
  | n + 1, x => ∀ child ∈ children x, Shallow n child

/-- Every node is listed once, under one parent. -/
structure Separate : Prop where
  once : ∀ x, (children x).Nodup
  parent : ∀ {x p q}, Child children x p → Child children x q → p = q

variable {children} {x y z : α}

/-! ## Ways down -/

theorem Shallow.irrefl {n : Nat} (h : Shallow children n x) : ¬ Below children x x := by
  have hdown : ∀ {a b : α}, Below children a b → ∀ n, Shallow children n b →
      ∃ m, m < n ∧ Shallow children m a := by
    intro a b hab
    induction hab using TransGen.head_induction_on with
    | single hchild =>
      intro n hb
      cases n with
      | zero => exact hb.elim
      | succ n => exact ⟨n, Nat.lt_succ_self n, hb _ hchild⟩
    | head hchild _ ih =>
      intro n hb
      obtain ⟨m, hm, hmid⟩ := ih n hb
      cases m with
      | zero => exact hmid.elim
      | succ m => exact ⟨m, by omega, hmid _ hchild⟩
  intro hcycle
  induction n using Nat.strongRecOn with
  | ind n ih =>
    obtain ⟨m, hm, hshallow⟩ := hdown hcycle n h
    exact ih m hm hshallow

theorem below_iff : Below children y x ↔ ∃ child ∈ children x, AtOrBelow children y child := by
  constructor
  · intro h
    obtain ⟨child, hat, hchild⟩ := TransGen.tail'_iff.mp h
    exact ⟨child, hchild, hat⟩
  · rintro ⟨child, hchild, hat⟩
    exact TransGen.tail' hat hchild

theorem atOrBelow_iff : AtOrBelow children y x ↔ y = x ∨ Below children y x := by
  rw [AtOrBelow, reflTransGen_iff_eq_or_transGen, eq_comm]
  rfl

theorem Separate.comparable (separate : Separate children) (hy : AtOrBelow children x y)
    (hz : AtOrBelow children x z) : AtOrBelow children y z ∨ AtOrBelow children z y := by
  induction hy with
  | refl => exact .inl hz
  | tail _ hchild ih =>
    rcases ih with hle | hle
    · rcases (atOrBelow_iff.mp hle) with rfl | hbelow
      · exact .inr (ReflTransGen.single hchild)
      · obtain ⟨p, hp, hrest⟩ := TransGen.head'_iff.mp hbelow
        rw [separate.parent hchild hp]
        exact .inl hrest
    · exact .inr (hle.tail hchild)

theorem Separate.siblings (separate : Separate children) {p : α} (acyclic : ¬ Below children p p)
    (hy : y ∈ children p) (hz : z ∈ children p) (hxy : AtOrBelow children x y)
    (hxz : AtOrBelow children x z) : y = z := by
  have hone : ∀ {a b : α}, a ∈ children p → b ∈ children p → AtOrBelow children a b → a = b := by
    intro a b ha hb hab
    rcases (atOrBelow_iff.mp hab) with heq | hbelow
    · exact heq
    · obtain ⟨q, hq, hrest⟩ := TransGen.head'_iff.mp hbelow
      rw [separate.parent hq ha] at hrest
      exact absurd (TransGen.tail' hrest hb) acyclic
  rcases separate.comparable hxy hxz with hle | hle
  · exact hone hy hz hle
  · exact (hone hz hy hle).symm

/-! ## What is collected -/

/-- A list of nodes with each one before all that it lies below. -/
def BottomUp (children : α → List α) (list : List α) : Prop := list.Pairwise fun a b => ¬ Below children b a

theorem collect_foldlM {fuel : Nat} {below : α → List α} (hcollect : ∀ child ∈ children x, ∀ output,
      collect children fuel child output = some (output ++ below child)) (output : List α) :
    collect children (fuel + 1) x output =
      some (output ++ (children x).flatMap fun child => below child ++ [child]) := by
  rw [collect]
  generalize children x = list at hcollect
  induction list generalizing output with
  | nil => rw [flatMap_nil, append_nil]; rfl
  | cons child rest ih =>
    have hrest := ih (output ++ (below child ++ [child])) fun c hmem => hcollect c (mem_cons_of_mem _ hmem)
    rw [append_assoc] at hrest
    rw [foldlM_cons, hcollect child mem_cons_self, Option.map_some, append_assoc, flatMap_cons, ← hrest]
    rfl

/-- **With enough fuel the recursion returns**, and what it adds to the output is all that lies below
the node, bottom up. -/
theorem Shallow.collect {n : Nat} (h : Shallow children n x) :
    ∃ list, (∀ output, Descent.collect children n x output = some (output ++ list)) ∧
      (∀ y, y ∈ list ↔ Below children y x) ∧
      (Separate children → list.Nodup ∧ BottomUp children list) := by
  induction n generalizing x with
  | zero => exact h.elim
  | succ n ih =>
    have hchoice : ∀ child : α, ∃ list : List α, child ∈ children x →
        (∀ output, Descent.collect children n child output = some (output ++ list)) ∧
        (∀ y, y ∈ list ↔ Below children y child) ∧
        (Separate children → list.Nodup ∧ BottomUp children list) := by
      intro child
      by_cases hmem : child ∈ children x
      · obtain ⟨list, hlist⟩ := ih (h child hmem)
        exact ⟨list, fun _ => hlist⟩
      · exact ⟨[], fun hchild => absurd hchild hmem⟩
    choose below hbelow using hchoice
    have hblock : ∀ child ∈ children x, ∀ y, y ∈ below child ++ [child] ↔ AtOrBelow children y child := by
      intro child hmem y
      rw [mem_append, mem_singleton, (hbelow child hmem).2.1, atOrBelow_iff]
      exact or_comm
    refine ⟨(children x).flatMap fun child => below child ++ [child],
      collect_foldlM fun child hmem => (hbelow child hmem).1, fun y => ?_, fun separate => ?_⟩
    · rw [mem_flatMap, below_iff]
      exact exists_congr fun child => and_congr_right fun hmem => hblock child hmem y
    · have hdisjoint : ∀ {a b child child' : α}, child ∈ children x → child' ∈ children x →
          child ≠ child' → a ∈ below child ++ [child] → b ∈ below child' ++ [child'] →
          ¬ AtOrBelow children b a := by
        intro a b child child' hchild hchild' hne ha hb hba
        exact hne (separate.siblings h.irrefl hchild hchild'
          (hba.trans ((hblock child hchild a).mp ha)) ((hblock child' hchild' b).mp hb))
      have honce : (children x).Pairwise fun a b => a ∈ children x ∧ b ∈ children x ∧ a ≠ b := by
        refine (separate.once x).imp_of_mem fun ha hb hne => ⟨ha, hb, hne⟩
      constructor
      · rw [nodup_flatMap]
        refine ⟨fun child hmem => ?_, honce.imp fun {a b} ⟨ha, hb, hne⟩ => ?_⟩
        · rw [nodup_append]
          refine ⟨((hbelow child hmem).2.2 separate).1, nodup_singleton child, ?_⟩
          rintro y hy z hz rfl
          rw [mem_singleton.mp hz, (hbelow child hmem).2.1] at hy
          exact (h child hmem).irrefl hy
        · exact fun y hya hyb => hdisjoint ha hb hne hya hyb ReflTransGen.refl
      · rw [BottomUp, pairwise_flatMap]
        refine ⟨fun child hmem => ?_, honce.imp fun {a b} ⟨ha, hb, hne⟩ => ?_⟩
        · rw [pairwise_append]
          refine ⟨((hbelow child hmem).2.2 separate).2, pairwise_singleton _ _, ?_⟩
          intro y hy z hz hzy
          rw [mem_singleton.mp hz] at hzy
          exact (h child hmem).irrefl (hzy.trans (((hbelow child hmem).2.1 y).mp hy))
        · exact fun y hya z hzb hzy => hdisjoint ha hb hne hya hzb hzy.to_reflTransGen

/-! ## Several roots -/

section KeepFirst

variable [DecidableEq α]

def keepFirst : List α → List α → List α
  | _, [] => []
  | seen, x :: rest => if x ∈ seen then keepFirst seen rest else x :: keepFirst (x :: seen) rest

theorem mem_keepFirst {seen list : List α} {x : α} : x ∈ keepFirst seen list ↔ x ∈ list ∧ x ∉ seen := by
  induction list generalizing seen with
  | nil => simp [keepFirst]
  | cons y rest ih =>
    rw [keepFirst]
    split
    · rename_i hseen
      rw [ih, mem_cons]
      constructor
      · rintro ⟨hrest, hout⟩
        exact ⟨.inr hrest, hout⟩
      · rintro ⟨rfl | hrest, hout⟩
        · exact absurd hseen hout
        · exact ⟨hrest, hout⟩
    · rename_i hnew
      rw [mem_cons, ih, mem_cons, mem_cons, not_or]
      constructor
      · rintro (rfl | ⟨hrest, -, hout⟩)
        · exact ⟨.inl rfl, hnew⟩
        · exact ⟨.inr hrest, hout⟩
      · rintro ⟨heq | hrest, hout⟩
        · exact .inl heq
        · by_cases heq : x = y
          · exact .inl heq
          · exact .inr ⟨hrest, heq, hout⟩

theorem nodup_keepFirst (seen list : List α) : (keepFirst seen list).Nodup := by
  induction list generalizing seen with
  | nil => exact nodup_nil
  | cons y rest ih =>
    rw [keepFirst]
    split
    · exact ih seen
    · rw [nodup_cons]
      refine ⟨fun hmem => ?_, ih _⟩
      exact (mem_keepFirst.mp hmem).2 mem_cons_self

theorem keepFirst_congr {seen seen' : List α} (h : ∀ x, x ∈ seen ↔ x ∈ seen') (list : List α) :
    keepFirst seen list = keepFirst seen' list := by
  induction list generalizing seen seen' with
  | nil => rfl
  | cons y rest ih =>
    have hcons : ∀ x, x ∈ y :: seen ↔ x ∈ y :: seen' := by
      intro x
      rw [mem_cons, mem_cons, h x]
    rw [keepFirst, keepFirst, ih h, ih hcons]
    simp only [h y]

theorem keepFirst_append (seen list more : List α) :
    keepFirst seen (list ++ more) = keepFirst seen list ++ keepFirst (list ++ seen) more := by
  induction list generalizing seen with
  | nil => rfl
  | cons y rest ih =>
    rw [cons_append, keepFirst, keepFirst]
    split
    · rename_i hmem
      rw [ih]
      congr 1
      refine keepFirst_congr (fun x => ?_) more
      rw [cons_append, mem_cons, mem_append]
      constructor
      · exact .inr
      · rintro (rfl | h)
        · exact .inr hmem
        · exact h
    · rw [ih]
      congr 2
      refine keepFirst_congr (fun x => ?_) more
      rw [mem_append, cons_append, mem_cons, mem_cons, mem_append]
      exact or_left_comm

theorem keepFirst_sublist (seen list : List α) : (keepFirst seen list).Sublist list := by
  induction list generalizing seen with
  | nil => exact Sublist.slnil
  | cons y rest ih =>
    rw [keepFirst]
    split
    · exact (ih seen).cons y
    · exact (ih _).cons_cons y

theorem bottomUp_keepFirst_append (children : α → List α) {list more : List α}
    (closed : ∀ a ∈ list, ∀ b, Below children b a → b ∈ list) (hlist : BottomUp children (keepFirst [] list))
    (hmore : BottomUp children more) : BottomUp children (keepFirst [] (list ++ more)) := by
  rw [keepFirst_append, BottomUp, pairwise_append]
  refine ⟨hlist, hmore.sublist (keepFirst_sublist _ _), fun a ha b hb hba => ?_⟩
  have hnew := (mem_keepFirst.mp hb).2
  rw [append_nil] at hnew
  exact hnew (closed a (mem_keepFirst.mp ha).1 b hba)

end KeepFirst

end Lector.Descent
