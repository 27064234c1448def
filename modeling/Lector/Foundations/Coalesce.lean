import Mathlib.Data.List.Basic
import Mathlib.Data.List.Flatten

/-! Merging adjacent text events. Two streams without empty pieces merge to the same stream exactly
when they expand to the same items. -/
namespace Lector.Coalesce
open List

variable {κ α ε : Type}

/-- How pieces of text sit among the events `ε`. Only pieces with the same key are merged. -/
structure Pieces (κ α ε : Type) where
  text : κ → List α → ε
  read : ε → Option (κ × List α)
  read_eq_some : ∀ e k a, read e = some (k, a) ↔ e = text k a

namespace Pieces
variable (P : Pieces κ α ε)

@[simp] theorem read_text (k : κ) (a : List α) : P.read (P.text k a) = some (k, a) :=
  (P.read_eq_some _ _ _).mpr rfl

def items (e : ε) : List ((κ × α) ⊕ ε) :=
  match P.read e with
  | some (k, a) => a.map fun x => .inl (k, x)
  | none => [.inr e]

def expand (es : List ε) : List ((κ × α) ⊕ ε) := es.flatMap P.items

@[simp] theorem expand_nil : P.expand [] = [] := rfl

@[simp] theorem expand_cons (e : ε) (es : List ε) :
    P.expand (e :: es) = P.items e ++ P.expand es := flatMap_cons

@[simp] theorem expand_append (es fs : List ε) :
    P.expand (es ++ fs) = P.expand es ++ P.expand fs := flatMap_append

@[simp] theorem items_text (k : κ) (a : List α) :
    P.items (P.text k a) = a.map fun x => .inl (k, x) := by simp [items]

def Solid (es : List ε) : Prop := ∀ e ∈ es, ∀ k, P.read e ≠ some (k, [])

theorem solid_nil : P.Solid [] := by simp [Solid]

theorem solid_append {es fs : List ε} (he : P.Solid es) (hf : P.Solid fs) : P.Solid (es ++ fs) := by
  intro e h
  rcases mem_append.mp h with h | h
  · exact he e h
  · exact hf e h

variable [DecidableEq κ]

def attach (e : ε) (es : List ε) : List ε :=
  match P.read e, es with
  | some (k, a), e' :: rest =>
    match P.read e' with
    | some (k', b) => if k = k' then P.text k (a ++ b) :: rest else e :: es
    | none => e :: es
  | _, _ => e :: es

def merge : List ε → List ε
  | [] => []
  | e :: es => P.attach e (merge es)

def regroup : List ((κ × α) ⊕ ε) → List ε
  | [] => []
  | .inl (k, x) :: rest => P.attach (P.text k [x]) (regroup rest)
  | .inr e :: rest => e :: regroup rest

theorem attach_other {e : ε} (h : P.read e = none) (es : List ε) : P.attach e es = e :: es := by
  simp [attach, h]

theorem attach_attach (k : κ) (a b : List α) (es : List ε) :
    P.attach (P.text k a) (P.attach (P.text k b) es) = P.attach (P.text k (a ++ b)) es := by
  cases es with
  | nil => simp [attach]
  | cons e es =>
    cases he : P.read e with
    | none => simp [attach, he]
    | some piece =>
      obtain ⟨k', c⟩ := piece
      by_cases hk : k = k'
      · simp [attach, he, hk]
      · simp [attach, he, hk]

theorem regroup_text (k : κ) (x : α) (a : List α) (rest : List ((κ × α) ⊕ ε)) :
    P.regroup (((x :: a).map fun y => .inl (k, y)) ++ rest) =
      P.attach (P.text k (x :: a)) (P.regroup rest) := by
  induction a generalizing x with
  | nil => rfl
  | cons y a ih =>
    rw [map_cons, cons_append, regroup, ih y, attach_attach]
    rfl

theorem merge_eq_regroup {es : List ε} (h : P.Solid es) : P.merge es = P.regroup (P.expand es) := by
  induction es with
  | nil => rfl
  | cons e es ih =>
    have htail := ih fun e' he' => h e' (mem_cons_of_mem _ he')
    rw [merge, htail, expand_cons, items]
    cases he : P.read e with
    | none => rw [attach_other P he]; rfl
    | some piece =>
      obtain ⟨k, a⟩ := piece
      cases a with
      | nil => exact absurd he (h e (by simp) k)
      | cons x a =>
        rw [(P.read_eq_some e k (x :: a)).mp he]
        exact (P.regroup_text k x a (P.expand es)).symm

theorem expand_attach (e : ε) (es : List ε) : P.expand (P.attach e es) = P.items e ++ P.expand es := by
  cases he : P.read e with
  | none => rw [attach_other P he]; rfl
  | some piece =>
    obtain ⟨k, a⟩ := piece
    cases es with
    | nil => simp [attach]
    | cons e' es =>
      cases he' : P.read e' with
      | none => simp [attach, he, he']
      | some piece' =>
        obtain ⟨k', b⟩ := piece'
        by_cases hk : k = k'
        · subst hk
          simp [attach, he, he', items]
        · simp [attach, he, he', hk]

theorem expand_merge (es : List ε) : P.expand (P.merge es) = P.expand es := by
  induction es with
  | nil => rfl
  | cons e es ih => rw [merge, expand_attach, ih, expand_cons]

/-- **Merging forgets only where the pieces were cut.** -/
theorem merge_eq_iff {es fs : List ε} (he : P.Solid es) (hf : P.Solid fs) :
    P.merge es = P.merge fs ↔ P.expand es = P.expand fs := by
  constructor
  · intro h
    rw [← P.expand_merge es, h, P.expand_merge fs]
  · intro h
    rw [P.merge_eq_regroup he, P.merge_eq_regroup hf, h]

end Pieces

end Lector.Coalesce

/-! A stream that is passed on in groups. Each event passed on stands for a group of consecutive
offered events: one event as it came, or pieces of text with one key, put together up to a limit. -/
namespace Lector.Coalesce.Pieces
open List

variable {κ α ε β : Type} (P : Pieces κ α ε) (limit : Nat)

/-- The event that is passed on for one group. -/
inductive Gathers : List ε → ε → Prop
  | single (e : ε) : Gathers [e] e
  | run (k : κ) (a b : List α) (rest : List (List α))
      (fits : (a :: b :: rest).flatten.length ≤ limit) :
      Gathers ((a :: b :: rest).map (P.text k)) (P.text k (a :: b :: rest).flatten)

/-- The offered stream is cut into consecutive groups, one for each event passed on. -/
inductive Grouped : List ε → List ε → Prop
  | nil : Grouped [] []
  | snoc {offered emitted group : List ε} {e : ε} (before : Grouped offered emitted)
      (last : P.Gathers limit group e) : Grouped (offered ++ group) (emitted ++ [e])

variable {P limit} {offered emitted : List ε}

theorem text_inj {k k' : κ} {a b : List α} (h : P.text k a = P.text k' b) : k = k' ∧ a = b := by
  have hread : P.read (P.text k' b) = some (k, a) := by rw [← h, P.read_text]
  rw [P.read_text] at hread
  simp only [Option.some.injEq, Prod.mk.injEq] at hread
  exact ⟨hread.1.symm, hread.2.symm⟩

theorem Gathers.extend {group : List ε} {k : κ} {a : List α}
    (h : P.Gathers limit group (P.text k a)) (b : List α) (hfits : (a ++ b).length ≤ limit) :
    P.Gathers limit (group ++ [P.text k b]) (P.text k (a ++ b)) := by
  generalize he : P.text k a = e at h
  cases h with
  | single =>
    subst he
    simpa using Gathers.run (P := P) k a b [] (by simpa using hfits)
  | run k' c d rest fits =>
    obtain ⟨rfl, rfl⟩ := text_inj he
    simpa using Gathers.run (P := P) k c d (rest ++ [b]) (by simpa using hfits)

theorem Grouped.push (h : P.Grouped limit offered emitted) (e : ε) :
    P.Grouped limit (offered ++ [e]) (emitted ++ [e]) := h.snoc (.single e)

theorem Grouped.extend {k : κ} {a : List α}
    (h : P.Grouped limit offered (emitted ++ [P.text k a])) (b : List α) (hfits : (a ++ b).length ≤ limit) :
    P.Grouped limit (offered ++ [P.text k b]) (emitted ++ [P.text k (a ++ b)]) := by
  generalize hall : emitted ++ [P.text k a] = all at h
  cases h with
  | nil => simp at hall
  | snoc before last =>
    obtain ⟨rfl, he⟩ := append_inj' hall rfl
    obtain rfl := singleton_inj.mp he
    rw [append_assoc]
    exact before.snoc (last.extend b hfits)

theorem Grouped.flatMap_eq (h : P.Grouped limit offered emitted) (f : ε → List β)
    (hnil : ∀ k, f (P.text k []) = [])
    (happend : ∀ k a b, f (P.text k (a ++ b)) = f (P.text k a) ++ f (P.text k b)) :
    emitted.flatMap f = offered.flatMap f := by
  have hpieces : ∀ (k : κ) (pieces : List (List α)),
      f (P.text k pieces.flatten) = (pieces.map (P.text k)).flatMap f := by
    intro k pieces
    induction pieces with
    | nil => simp [hnil]
    | cons a pieces ih => rw [flatten_cons, happend, ih, map_cons, flatMap_cons]
  induction h with
  | nil => rfl
  | snoc before last ih =>
    rw [flatMap_append, flatMap_append, ih, flatMap_singleton]
    cases last with
    | single e => rw [flatMap_singleton]
    | run k a b rest => rw [hpieces]

theorem Grouped.bounded (h : P.Grouped limit offered emitted) {k : κ} {a : List α}
    (hmem : P.text k a ∈ emitted) : a.length ≤ limit ∨ P.text k a ∈ offered := by
  generalize he : P.text k a = e at hmem
  induction h with
  | nil => simp at hmem
  | @snoc offered emitted group e' before last ih =>
    rcases mem_append.mp hmem with hmem | hmem
    · exact (ih hmem).imp_right (mem_append_left _)
    · obtain rfl := mem_singleton.mp hmem
      cases last with
      | single => exact .inr (by simp)
      | run k' b c rest fits =>
        obtain ⟨rfl, rfl⟩ := text_inj he
        exact .inl fits

end Lector.Coalesce.Pieces

/-! Lists of strings that were put together from smaller ones. Each element of the lane is the
concatenation of consecutive offered strings, and no offered string is used twice. -/
namespace Lector.Batching
open List

variable {α : Type}

def Batched (lane offered : List (List α)) : Prop :=
  ∃ groups : List (List (List α)), lane = groups.map List.flatten ∧ groups.flatten.Sublist offered

variable {lane lane' offered offered' : List (List α)}

theorem batched_nil : Batched ([] : List (List α)) [] := ⟨[], rfl, Sublist.refl _⟩

theorem Batched.mono (h : Batched lane offered) (hsub : offered.Sublist offered') : Batched lane offered' := by
  obtain ⟨groups, hlane, hgroups⟩ := h
  exact ⟨groups, hlane, hgroups.trans hsub⟩

theorem Batched.sublist (h : Batched lane offered) (hsub : lane'.Sublist lane) : Batched lane' offered := by
  obtain ⟨groups, rfl, hgroups⟩ := h
  obtain ⟨groups', hsub', rfl⟩ := sublist_map_iff.mp hsub
  exact ⟨groups', rfl, hsub'.flatten.trans hgroups⟩

theorem Batched.push (h : Batched lane offered) (bytes : List α) :
    Batched (lane ++ [bytes]) (offered ++ [bytes]) := by
  obtain ⟨groups, rfl, hgroups⟩ := h
  refine ⟨groups ++ [[bytes]], by simp, ?_⟩
  rw [flatten_append]
  exact hgroups.append (by simp)

theorem Batched.extend {last : List α} (h : Batched (lane ++ [last]) offered) (bytes : List α) :
    Batched (lane ++ [last ++ bytes]) (offered ++ [bytes]) := by
  obtain ⟨groups, hlane, hgroups⟩ := h
  obtain ⟨before, group, rfl, hbefore, hgroup⟩ := append_eq_map_iff.mp hlane
  obtain ⟨parts, rfl, hparts⟩ : ∃ parts, group = [parts] ∧ parts.flatten = last := by
    cases group with
    | nil => simp at hgroup
    | cons parts rest =>
      simp only [map_cons, cons.injEq] at hgroup
      exact ⟨parts, by rw [map_eq_nil_iff.mp hgroup.2], hgroup.1⟩
  refine ⟨before ++ [parts ++ [bytes]], ?_, ?_⟩
  · simp [← hbefore, hparts]
  · rw [flatten_append] at hgroups ⊢
    simp only [flatten_singleton] at hgroups ⊢
    rw [← append_assoc]
    exact hgroups.append (.refl _)

end Lector.Batching
