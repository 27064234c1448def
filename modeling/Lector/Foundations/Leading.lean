import Mathlib.Data.List.Basic

/-! Lines of leaders and followers. Followers are alike; a leader leads every follower behind it.
The laws say when a follower keeps its leader: the line grows, or a leader joins, gives its place
away, or goes with all behind it. -/
namespace Lector.Leading
open List

variable {α : Type}

inductive Place (α : Type)
  | leader (a : α)
  | follower

open Place

def followers : List (Place α) → Nat
  | [] => 0
  | leader _ :: line => followers line
  | follower :: line => followers line + 1

section Count

variable (p q : List (Place α))

@[simp] theorem followers_nil : followers ([] : List (Place α)) = 0 := rfl

@[simp] theorem followers_leader (a : α) : followers (leader a :: p) = followers p := rfl

@[simp] theorem followers_follower : followers (follower :: p) = followers p + 1 := rfl

@[simp] theorem followers_append : followers (p ++ q) = followers p + followers q := by
  induction p with
  | nil => simp
  | cons place p ih =>
    cases place with
    | leader a => simpa using ih
    | follower =>
      simp only [cons_append, followers_follower]
      omega

@[simp] theorem followers_replicate (n : Nat) : followers (replicate n (follower : Place α)) = n := by
  induction n with
  | zero => rfl
  | succ n ih => rw [replicate_succ, followers_follower, ih]

@[simp] theorem followers_leaders (as : List α) : followers (as.map leader) = 0 := by
  induction as with
  | nil => rfl
  | cons a as ih => rwa [map_cons, followers_leader]

end Count

def Leads (a : α) (k : Nat) (line : List (Place α)) : Prop :=
  k < followers line ∧ ∃ p q, line = p ++ leader a :: q ∧ followers p ≤ k

variable {a b b' : α} {k n : Nat} {p q line : List (Place α)}

theorem Leads.mem (h : Leads a k line) : leader a ∈ line := by
  obtain ⟨-, -, -, rfl, -⟩ := h
  exact mem_append_right _ mem_cons_self

theorem Leads.append (h : Leads a k line) (more : List (Place α)) : Leads a k (line ++ more) := by
  obtain ⟨hk, p, q, rfl, hp⟩ := h
  refine ⟨by rw [followers_append]; omega, p, q ++ more, by simp, hp⟩

theorem leads_new (hmem : leader a ∈ line) (hfirst : followers line ≤ k) (hlast : k < followers line + n) :
    Leads a k (line ++ replicate n follower) := by
  obtain ⟨p, q, rfl⟩ := append_of_mem hmem
  refine ⟨by rwa [followers_append (p ++ leader a :: q), followers_replicate], p, q ++ replicate n follower,
    by simp, ?_⟩
  rw [followers_append] at hfirst
  omega

theorem Leads.split (h : Leads a k (p ++ q)) : (∃ p₀ p₁, p = p₀ ++ leader a :: p₁ ∧ followers p₀ ≤ k) ∨
      ∃ q₀ q₁, q = q₀ ++ leader a :: q₁ ∧ followers p + followers q₀ ≤ k := by
  obtain ⟨-, l, r, heq, hl⟩ := h
  obtain ⟨m, rfl, hr⟩ | ⟨m, rfl, hq⟩ := append_eq_append_iff.mp heq
  · exact .inr ⟨m, r, hr, by rwa [followers_append] at hl⟩
  · cases m with
    | nil => exact .inr ⟨[], r, by simpa using hq.symm, by simpa using hl⟩
    | cons place m =>
      obtain ⟨rfl, rfl⟩ := cons.inj hq
      exact .inl ⟨l, m, rfl, hl⟩

theorem Leads.insert (h : Leads a k (p ++ q)) (b : α) : Leads a k (p ++ leader b :: q) := by
  have hk : k < followers (p ++ leader b :: q) := by
    have := h.1
    rw [followers_append] at this
    rwa [followers_append, followers_leader]
  obtain ⟨p₀, p₁, rfl, hp⟩ | ⟨q₀, q₁, rfl, hq⟩ := h.split
  · exact ⟨hk, p₀, p₁ ++ leader b :: q, by simp, hp⟩
  · exact ⟨hk, p ++ leader b :: q₀, q₁, by simp, by simpa using hq⟩

theorem Leads.replace (h : Leads a k (p ++ leader b :: q)) (b' : α) :
    Leads a k (p ++ leader b' :: q) ∨ (a = b ∧ Leads b' k (p ++ leader b' :: q)) := by
  have hk : k < followers (p ++ leader b' :: q) := by
    have := h.1
    rw [followers_append] at this
    rwa [followers_append, followers_leader]
  obtain ⟨p₀, p₁, rfl, hp⟩ | ⟨q₀, q₁, heq, hq⟩ := h.split
  · exact .inl ⟨hk, p₀, p₁ ++ leader b' :: q, by simp, hp⟩
  · cases q₀ with
    | nil =>
      obtain ⟨hb, rfl⟩ := cons.inj heq
      exact .inr ⟨(leader.inj hb).symm, hk, p, q, rfl, by simpa using hq⟩
    | cons place q₀ =>
      obtain ⟨rfl, rfl⟩ := cons.inj heq
      exact .inl ⟨hk, p ++ leader b' :: q₀, q₁, by simp, by simpa using hq⟩

theorem Leads.of_tail (h : Leads a k (p ++ q)) (hq : followers q = 0) : Leads a k p := by
  have hk := h.1
  rw [followers_append, hq] at hk
  obtain ⟨p₀, p₁, rfl, hp⟩ | ⟨q₀, -, rfl, hq₀⟩ := h.split
  · exact ⟨hk, p₀, p₁, rfl, hp⟩
  · omega

/-- **The leader of a follower stands in front of its group.** -/
theorem Leads.before (h : Leads a k (p ++ (replicate n follower ++ q))) (hlast : k < followers p + n) :
    leader a ∈ p := by
  obtain ⟨-, -, rfl, -⟩ | ⟨q₀, q₁, heq, hq⟩ := h.split
  · exact mem_append_right _ mem_cons_self
  · obtain ⟨m, rfl, -⟩ | ⟨m, hreplicate, hm⟩ := append_eq_append_iff.mp heq
    · rw [followers_append, followers_replicate] at hq
      omega
    · cases m with
      | nil =>
        rw [append_nil] at hreplicate
        rw [← hreplicate, followers_replicate] at hq
        omega
      | cons place m =>
        obtain ⟨rfl, -⟩ := cons.inj hm
        have hmem : leader a ∈ replicate n (follower : Place α) := by
          rw [hreplicate]
          exact mem_append_right _ mem_cons_self
        cases eq_of_mem_replicate hmem

end Lector.Leading
