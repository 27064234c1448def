import Lector.Foundations.SortedMap
import Mathlib.Data.List.Nodup
import Mathlib.Data.List.Perm.Subperm

/-! Queues: one that a writer takes in pieces, several that are served in turn, and one in which a new value takes the
place of an older one with its key. -/

/-! Queues of byte strings that a writer takes in pieces. The law: what has been written is the
finished items in full, then the started part of the front item, and nothing behind the front has
been started. -/
namespace Lector.SerialQueue
open List

variable {τ β : Type}

/-- How the items of a queue hold their bytes and how far they are written. -/
structure Layout (τ β : Type) where
  bytes : τ → List β
  offset : τ → Nat

variable (l : Layout τ β)

def Layout.remaining (t : τ) : List β := (l.bytes t).drop (l.offset t)

/-- The part of the front item that has been written. -/
def Layout.started : List τ → List β
  | [] => []
  | t :: _ => (l.bytes t).take (l.offset t)

structure Serial (finished queue : List τ) (output : List β) : Prop where
  behind : ∀ t ∈ queue.tail, l.offset t = 0
  output_eq : output = finished.flatMap l.bytes ++ l.started queue

/-- `queue'` is `queue` without some items that were not started. -/
structure Prunes (queue queue' : List τ) : Prop where
  sublist : queue'.Sublist queue
  keeps : ∀ t ∈ queue, 0 < l.offset t → t ∈ queue'

variable {l} {finished queue queue' : List τ} {output : List β}

theorem serial_nil : Serial l [] [] [] := ⟨by simp, rfl⟩

theorem Prunes.refl : Prunes l queue queue := ⟨Sublist.refl _, fun _ h _ => h⟩

theorem Prunes.filter {keep : τ → Bool} (h : ∀ t, 0 < l.offset t → keep t = true) :
    Prunes l queue (queue.filter keep) :=
  ⟨filter_sublist, fun t ht h0 => mem_filter.mpr ⟨ht, h t h0⟩⟩

theorem Prunes.eraseIdx {i : Nat} {t : τ} (hi : queue[i]? = some t) (h0 : l.offset t = 0) :
    Prunes l queue (queue.eraseIdx i) where
  sublist := eraseIdx_sublist _ _
  keeps u hu hpos := by
    obtain ⟨j, hj, rfl⟩ := mem_iff_getElem.mp hu
    rw [mem_eraseIdx_iff_getElem]
    refine ⟨j, hj, ?_, rfl⟩
    rintro rfl
    rw [getElem?_eq_getElem hj, Option.some.injEq] at hi
    rw [hi] at hpos
    omega

theorem Prunes.trans {queue'' : List τ} (h : Prunes l queue queue') (h' : Prunes l queue' queue'') :
    Prunes l queue queue'' :=
  ⟨h'.sublist.trans h.sublist, fun t ht h0 => h'.keeps t (h.keeps t ht h0) h0⟩

namespace Serial

theorem append (h : Serial l finished queue output) {fresh : List τ}
    (hfresh : ∀ t ∈ fresh, l.offset t = 0) : Serial l finished (queue ++ fresh) output := by
  cases queue with
  | nil =>
    constructor
    · exact fun t ht => hfresh t (mem_of_mem_tail ht)
    · rw [h.output_eq]
      cases fresh with
      | nil => rfl
      | cons t ts => simp [Layout.started, hfresh t mem_cons_self]
  | cons front rest =>
    constructor
    · intro t ht
      obtain ht | ht := mem_append.mp ht
      · exact h.behind t ht
      · exact hfresh t ht
    · exact h.output_eq

theorem prune (h : Serial l finished queue output) (hp : Prunes l queue queue') :
    Serial l finished queue' output := by
  cases queue with
  | nil =>
    obtain rfl := sublist_nil.mp hp.sublist
    exact h
  | cons front rest =>
    have hrest := h.behind
    by_cases h0 : l.offset front = 0
    · have hall : ∀ t ∈ queue', l.offset t = 0 := by
        intro t ht
        obtain rfl | ht := mem_cons.mp (hp.sublist.subset ht)
        · exact h0
        · exact hrest t ht
      constructor
      · exact fun t ht => hall t (mem_of_mem_tail ht)
      · rw [h.output_eq]
        cases queue' with
        | nil => simp [Layout.started, h0]
        | cons t ts => simp [Layout.started, h0, hall t mem_cons_self]
    · have hmem := hp.keeps front mem_cons_self (Nat.pos_of_ne_zero h0)
      cases hp.sublist with
      | cons _ hsub => exact absurd (hrest front (hsub.subset hmem)) h0
      | cons_cons _ hsub => exact ⟨fun t ht => hrest t (hsub.subset ht), h.output_eq⟩

theorem write {front front' : τ} {rest : List τ} (h : Serial l finished (front :: rest) output)
    {n : Nat} (hbytes : l.bytes front' = l.bytes front) (hoffset : l.offset front' = l.offset front + n) :
    Serial l finished (front' :: rest) (output ++ (l.remaining front).take n) := by
  refine ⟨h.behind, ?_⟩
  rw [h.output_eq, append_assoc]
  simp only [Layout.started, Layout.remaining]
  rw [hbytes, hoffset, take_add]

theorem pop {front : τ} {rest : List τ} (h : Serial l finished (front :: rest) output)
    (hdone : l.remaining front = []) : Serial l (finished ++ [front]) rest output := by
  have hrest := h.behind
  have hfull := take_of_length_le (drop_eq_nil_iff.mp hdone)
  constructor
  · exact fun t ht => hrest t (mem_of_mem_tail ht)
  · have hstarted : l.started rest = [] := by
      cases rest with
      | nil => rfl
      | cons t ts => simp [Layout.started, hrest t mem_cons_self]
    rw [h.output_eq, hstarted]
    simp [Layout.started, hfull]

end Serial

end Lector.SerialQueue

/-! Queues that are served in turn, with a ledger of what entered a queue, what left it at the
front, and when it was dropped as a whole. -/
namespace Lector.FairQueue
open Std List

variable {κ α : Type} [Ord κ] [TransOrd κ]

def queueOf (queues : ExtTreeMap κ (List α)) (k : κ) : List α := queues[k]?.getD []

/-- The order names every queue once, and no queue is empty. -/
structure Listed (queues : ExtTreeMap κ (List α)) (order : List κ) : Prop where
  once : order.Nodup
  listed : ∀ k : κ, k ∈ order ↔ queueOf queues k ≠ []
  filled : ∀ k : κ, queues[k]? ≠ some []

theorem listed_empty : Listed (∅ : ExtTreeMap κ (List α)) [] where
  once := nodup_nil
  listed k := by simp [queueOf]
  filled k := by simp

variable {queues : ExtTreeMap κ (List α)} {order : List κ} {k : κ}

theorem Listed.isSome_iff (h : Listed queues order) (k : κ) : queues[k]?.isSome ↔ k ∈ order := by
  rw [h.listed, queueOf]
  have hfilled := h.filled k
  cases hqueue : queues[k]? with
  | none => simp
  | some queue => simpa [hqueue] using hfilled

section Lawful

variable [LawfulEqOrd κ] [DecidableEq κ]

theorem queueOf_insert (queue : List α) (k' : κ) :
    queueOf (queues.insert k queue) k' = if k = k' then queue else queueOf queues k' := by
  rw [queueOf, ExtTreeMap.getElem?_insert]
  split <;> simp_all [queueOf]

theorem queueOf_erase (k' : κ) : queueOf (queues.erase k) k' = if k = k' then [] else queueOf queues k' := by
  rw [queueOf, ExtTreeMap.getElem?_erase]
  split <;> simp_all [queueOf]

theorem Listed.enter_first (h : Listed queues order) (hk : k ∉ order) {items : List α}
    (hitems : items ≠ []) : Listed (queues.insert k items) (order ++ [k]) where
  once := nodup_append.mpr ⟨h.once, nodup_singleton k, by
    rintro a ha b hb rfl
    exact hk (mem_singleton.mp hb ▸ ha)⟩
  listed k' := by
    rw [mem_append, queueOf_insert, h.listed k']
    by_cases hsame : k = k'
    · simp [hsame, hitems]
    · simp [hsame, Ne.symm hsame]
  filled k' := by
    rw [ExtTreeMap.getElem?_insert]
    split
    · simpa using hitems
    · exact h.filled k'

theorem Listed.enter_more (h : Listed queues order) (hk : k ∈ order) (items : List α) :
    Listed (queues.insert k (queueOf queues k ++ items)) order where
  once := h.once
  listed k' := by
    rw [queueOf_insert, h.listed k']
    split
    · rename_i hsame
      subst hsame
      simp [(h.listed k).mp hk]
    · rfl
  filled k' := by
    rw [ExtTreeMap.getElem?_insert]
    split
    · simp [(h.listed k).mp hk]
    · exact h.filled k'

theorem Listed.drop (h : Listed queues order) (k : κ) : Listed (queues.erase k) (order.filter (· ≠ k)) where
  once := h.once.filter _
  listed k' := by
    rw [mem_filter, queueOf_erase, h.listed k']
    by_cases hsame : k = k'
    · simp [hsame]
    · simp [hsame, Ne.symm hsame]
  filled k' := by
    rw [ExtTreeMap.getElem?_erase]
    split
    · simp
    · exact h.filled k'

theorem Listed.serve_all (h : Listed queues (k :: order)) : Listed (queues.erase k) order := by
  obtain ⟨hfresh, -⟩ := nodup_cons.mp h.once
  have hdrop := h.drop k
  rwa [filter_cons_of_neg (by simp), filter_eq_self.mpr] at hdrop
  intro a ha
  have hne : a ≠ k := by
    rintro rfl
    exact hfresh ha
  simpa using hne

theorem Listed.serve_part (h : Listed queues (k :: order)) {rest : List α} (hrest : rest ≠ []) :
    Listed (queues.insert k rest) (order ++ [k]) := by
  obtain ⟨hfresh, -⟩ := nodup_cons.mp h.once
  have hagain := h.serve_all.enter_first hfresh hrest
  have hmap : (queues.erase k).insert k rest = queues.insert k rest := by
    apply ExtTreeMap.ext_getElem?
    intro k'
    simp only [ExtTreeMap.getElem?_insert, ExtTreeMap.getElem?_erase]
    split <;> rfl
  rwa [hmap] at hagain

end Lawful

/-! ## What passes through -/

inductive Passage (κ α : Type)
  | entered (k : κ) (items : List α)
  | left (k : κ) (items : List α)
  | dropped (k : κ)

section Ledger

variable [DecidableEq κ] (k : κ) (log : List (Passage κ α))

/-- What entered and what left the queue of `k`, both since it was last dropped. -/
def account : List α × List α := log.foldl note ([], [])
where
  note (sofar : List α × List α) : Passage κ α → List α × List α
    | .entered k' items => if k' = k then (sofar.1 ++ items, sofar.2) else sofar
    | .left k' items => if k' = k then (sofar.1, sofar.2 ++ items) else sofar
    | .dropped k' => if k' = k then ([], []) else sofar

def enteredSinceDrop : List α := (account k log).1

def leftSinceDrop : List α := (account k log).2

end Ledger

def Balanced [DecidableEq κ] (queues : ExtTreeMap κ (List α)) (log : List (Passage κ α)) : Prop :=
  ∀ k, enteredSinceDrop k log = leftSinceDrop k log ++ queueOf queues k

theorem balanced_empty [DecidableEq κ] : Balanced (∅ : ExtTreeMap κ (List α)) [] := by
  intro k
  simp [enteredSinceDrop, leftSinceDrop, account, queueOf]

section Balance

variable [DecidableEq κ] {log : List (Passage κ α)}

theorem Balanced.leave (h : Balanced queues log) {served rest : List α}
    (hqueue : queueOf queues k = served ++ rest) {queues' : ExtTreeMap κ (List α)}
    (hrest : ∀ k', queueOf queues' k' = if k = k' then rest else queueOf queues k') :
    Balanced queues' (log ++ [.left k served]) := by
  intro k'
  have hbefore := h k'
  rw [hrest]
  simp only [enteredSinceDrop, leftSinceDrop, account, foldl_append, foldl_cons, account.note] at hbefore ⊢
  split
  · rename_i hsame
    subst hsame
    simp [hbefore, hqueue]
  · exact hbefore

variable [LawfulEqOrd κ]

theorem Balanced.enter (h : Balanced queues log) (k : κ) (items : List α) :
    Balanced (queues.insert k (queueOf queues k ++ items)) (log ++ [.entered k items]) := by
  intro k'
  have hbefore := h k'
  rw [queueOf_insert]
  simp only [enteredSinceDrop, leftSinceDrop, account, foldl_append, foldl_cons, account.note] at hbefore ⊢
  split
  · rename_i hsame
    subst hsame
    simp [hbefore]
  · exact hbefore

theorem Balanced.drop (h : Balanced queues log) (k : κ) : Balanced (queues.erase k) (log ++ [.dropped k]) := by
  intro k'
  have hbefore := h k'
  rw [queueOf_erase]
  simp only [enteredSinceDrop, leftSinceDrop, account, foldl_append, foldl_cons, account.note] at hbefore ⊢
  split
  · rfl
  · exact hbefore

end Balance

end Lector.FairQueue

/-! Values published under keys, and a queue in which at most one value waits for each key: a new value
takes the place of the one that waits. What waits is then never older than what was published last. -/
namespace Lector.Latest
open List

variable {κ ν : Type}

/-- One value at most waits under each key, and it is what was published last. -/
structure Current (latest : κ → Option ν) (waiting : List (κ × ν)) : Prop where
  once : (waiting.map Prod.fst).Nodup
  latest : ∀ entry ∈ waiting, latest entry.1 = some entry.2

variable {latest : κ → Option ν} {waiting waiting' entries : List (κ × ν)} {key k : κ} {value : ν}

theorem Current.nil : Current latest [] := ⟨nodup_nil, fun _ hmem => absurd hmem not_mem_nil⟩

theorem Current.subperm (hcurrent : Current latest waiting) (h : waiting'.Subperm waiting) :
    Current latest waiting' := by
  refine ⟨?_, fun entry hmem => hcurrent.latest entry (h.subset hmem)⟩
  obtain ⟨kept, hperm, hsublist⟩ := h
  exact ((hperm.map Prod.fst).nodup_iff).mp (hcurrent.once.sublist (hsublist.map Prod.fst))

variable [DecidableEq κ]

/-- What is published last under each key, after some entries more. -/
def publish (latest : κ → Option ν) (entries : List (κ × ν)) : κ → Option ν :=
  entries.foldl (fun latest entry => Function.update latest entry.1 (some entry.2)) latest

/-- A value takes the place of the one that waits under its key, or waits last. -/
def replace (key : κ) (value : ν) : List (κ × ν) → List (κ × ν)
  | [] => [(key, value)]
  | entry :: rest => if entry.1 = key then (key, value) :: rest else entry :: replace key value rest

theorem publish_self : publish latest [(key, value)] key = some value := Function.update_self _ _ _

theorem publish_of_ne (hne : k ≠ key) : publish latest [(key, value)] k = latest k :=
  Function.update_of_ne hne _ _

theorem publish_again (h : ∀ entry ∈ entries, latest entry.1 = some entry.2) :
    publish latest entries = latest := by
  induction entries with
  | nil => rfl
  | cons entry rest ih =>
    have hfirst : Function.update latest entry.1 (some entry.2) = latest := by
      funext k
      by_cases hk : k = entry.1
      · rw [hk, Function.update_self]
        exact (h entry mem_cons_self).symm
      · rw [Function.update_of_ne hk]
    rw [publish, foldl_cons, hfirst]
    exact ih fun e he => h e (mem_cons_of_mem _ he)

theorem mem_replace {entry : κ × ν} (h : entry ∈ replace key value waiting) :
    entry = (key, value) ∨ entry ∈ waiting := by
  induction waiting with
  | nil => exact .inl (mem_singleton.mp h)
  | cons first rest ih =>
    rw [replace] at h
    split at h
    · rcases mem_cons.mp h with rfl | hrest
      · exact .inl rfl
      · exact .inr (mem_cons_of_mem _ hrest)
    · rcases mem_cons.mp h with rfl | hrest
      · exact .inr mem_cons_self
      · exact (ih hrest).imp_right (mem_cons_of_mem _)

/-- **A queue that replaces stays current.** -/
theorem Current.replace (hcurrent : Current latest waiting) (key : κ) (value : ν) :
    Current (publish latest [(key, value)]) (replace key value waiting) := by
  induction waiting with
  | nil =>
    refine ⟨nodup_cons.mpr ⟨not_mem_nil, nodup_nil⟩, fun entry hmem => ?_⟩
    rw [mem_singleton.mp hmem]
    exact publish_self
  | cons first rest ih =>
    have honce := hcurrent.once
    rw [map_cons, nodup_cons] at honce
    have hrest := ih ⟨honce.2, fun e he => hcurrent.latest e (mem_cons_of_mem _ he)⟩
    rw [Latest.replace]
    split
    · rename_i hkey
      refine ⟨?_, fun entry hmem => ?_⟩
      · rw [map_cons, nodup_cons, ← hkey]
        exact honce
      · rcases mem_cons.mp hmem with rfl | hmem
        · exact publish_self
        · have hne : entry.1 ≠ key := by
            intro heq
            exact honce.1 (hkey ▸ heq ▸ mem_map_of_mem hmem)
          rw [publish_of_ne hne]
          exact hcurrent.latest entry (mem_cons_of_mem _ hmem)
    · rename_i hkey
      refine ⟨?_, fun entry hmem => ?_⟩
      · rw [map_cons, nodup_cons]
        refine ⟨fun hmem => ?_, hrest.once⟩
        obtain ⟨entry, hentry, hfirst⟩ := mem_map.mp hmem
        rcases mem_replace hentry with rfl | hentry
        · exact hkey hfirst.symm
        · exact honce.1 (hfirst ▸ mem_map_of_mem hentry)
      · rcases mem_cons.mp hmem with rfl | hmem
        · rw [publish_of_ne hkey]
          exact hcurrent.latest entry mem_cons_self
        · exact hrest.latest entry hmem

end Lector.Latest
