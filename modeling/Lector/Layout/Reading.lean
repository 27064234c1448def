import Lector.Layout.Tree

/-! What a successful parse of a node has read: the text of one tree, whose panes and dividers it
adds to the parser, and whose splits passed their checks. -/
namespace Lector.Layout
open Bytes Std Lector.Topology Fueled LayoutTree List LayoutParser

/-! ## Single bytes and numbers -/

section Tokens

variable {s s' : LayoutParser}

theorem ends_peek {next : Option UInt8} : Ends peek s next s' ↔ next = s.rest.head? ∧ s' = s := by
  rw [peek, ends_bind]
  simp only [ends_get, ends_pure]
  constructor
  · rintro ⟨-, -, ⟨rfl, rfl⟩, rfl, rfl⟩
    exact ⟨rfl, rfl⟩
  · rintro ⟨rfl, rfl⟩
    exact ⟨_, _, ⟨rfl, rfl⟩, rfl, rfl⟩

theorem ends_advance {u : PUnit} : Ends advance s u s' ↔ s' = s.drop s.rest.tail := by
  rw [advance, ends_modify, eq_comm]

theorem rest_of_head? {b : UInt8} (hb : s.rest.head? = some b) : s.rest = b :: s.rest.tail :=
  (cons_head?_tail hb).symm

theorem ends_expect {expected : UInt8} {u : PUnit} (h : Ends (expect expected) s u s') :
    ∃ rest, s.rest = expected :: rest ∧ s' = s.drop rest := by
  rw [expect, ends_bind] at h
  obtain ⟨next, t, hpeek, h⟩ := h
  obtain ⟨rfl, rfl⟩ := ends_peek.mp hpeek
  by_cases hnext : t.rest.head? = some expected
  · rw [if_pos hnext, ends_advance] at h
    exact ⟨_, rest_of_head? hnext, h⟩
  · rw [if_neg hnext, ends_throw] at h
    exact h.elim

theorem parseU64_digits {digits : Bytes} {n : UInt64} (hall : ∀ b ∈ digits, isDigit b = true)
    (h : parseU64 digits = some n) : SpelledNat n.toNat digits := by
  have hplus : stripPrefix (ascii "+") digits = none := by
    cases hp : stripPrefix (ascii "+") digits with
    | none => rfl
    | some rest =>
      rw [stripPrefix_eq_some] at hp
      have hmem : (0x2b : UInt8) ∈ digits := by
        rw [hp]
        exact mem_append_left _ (by decide)
      cases hall _ hmem
  simp only [parseU64, parseUnsigned, hplus, Option.getD_none, Option.map_eq_some_iff] at h
  obtain ⟨v, hv, rfl⟩ := h
  by_cases hbad : (digits.isEmpty || !digits.all isDigit) = true
  · rw [if_pos hbad] at hv
    cases hv
  rw [if_neg hbad] at hv
  by_cases hlt : digitsValue digits < 2 ^ 64
  · rw [if_pos hlt, Option.some.injEq] at hv
    subst hv
    refine ⟨?_, hall, ?_⟩
    · intro hnil
      rw [hnil] at hbad
      exact hbad rfl
    · rw [UInt64.toNat_ofNat_of_lt' hlt]
  · rw [if_neg hlt] at hv
    cases hv

theorem ends_numberU64 {n : UInt64} (h : Ends numberU64 s n s') :
    ∃ digits rest, s.rest = digits ++ rest ∧ SpelledNat n.toNat digits ∧ s' = s.drop rest := by
  rw [numberU64, ends_bind] at h
  obtain ⟨t, t', hget, h⟩ := h
  obtain ⟨rfl, rfl⟩ := ends_get.mp hget
  rw [ends_bind] at h
  obtain ⟨u, t', hmod, h⟩ := h
  rw [ends_modify] at hmod
  by_cases hnil : s.rest.takeWhile isDigit = []
  · rw [if_pos hnil, ends_throw] at h
    exact h.elim
  rw [if_neg hnil, ends_settle] at h
  obtain ⟨hparse, rfl⟩ := h
  refine ⟨_, _, takeWhile_append_dropWhile.symm, ?_, hmod.symm⟩
  apply parseU64_digits
  · intro b hb
    exact mem_takeWhile_imp hb
  · cases hp : parseU64 (s.rest.takeWhile isDigit) with
    | none => simp [hp] at hparse
    | some m =>
      rw [hp] at hparse
      exact congrArg some (Except.ok.inj hparse)

theorem ends_numberU16 {n : UInt16} (h : Ends numberU16 s n s') :
    ∃ digits rest, s.rest = digits ++ rest ∧ SpelledNat n.toNat digits ∧ s' = s.drop rest := by
  rw [numberU16, ends_bind] at h
  obtain ⟨m, t, hnum, h⟩ := h
  obtain ⟨digits, rest, hrest, hspell, rfl⟩ := ends_numberU64 hnum
  by_cases hlt : m.toNat < 2 ^ 16
  · rw [if_pos hlt] at h
    obtain ⟨rfl, rfl⟩ := h
    have hval : m.toUInt16.toNat = m.toNat := by
      rw [UInt64.toNat_toUInt16, Nat.mod_eq_of_lt hlt]
    exact ⟨digits, rest, hrest, hval ▸ hspell, rfl⟩
  · rw [if_neg hlt, ends_throw] at h
    exact h.elim

theorem ends_parseRect {rect : NodeRect} (h : Ends parseRect s rect s') :
    ∃ text rest, s.rest = text ++ rest ∧ SpelledRect rect text ∧ s' = s.drop rest := by
  simp only [parseRect, ends_bind] at h
  obtain ⟨width, s₁, hwidth, _, s₂, hcross, height, s₃, hheight, _, s₄, hcomma, x, s₅, hx, _, s₆,
    hcomma', y, s₇, hy, h⟩ := h
  obtain ⟨w, r₁, e₁, hw, rfl⟩ := ends_numberU16 hwidth
  obtain ⟨r₂, e₂, rfl⟩ := ends_expect hcross
  obtain ⟨hh, r₃, e₃, hhs, rfl⟩ := ends_numberU16 hheight
  obtain ⟨r₄, e₄, rfl⟩ := ends_expect hcomma
  obtain ⟨xs, r₅, e₅, hxs, rfl⟩ := ends_numberU16 hx
  obtain ⟨r₆, e₆, rfl⟩ := ends_expect hcomma'
  obtain ⟨ys, r₇, e₇, hys, rfl⟩ := ends_numberU16 hy
  by_cases hzero : width = 0 ∨ height = 0
  · rw [if_pos hzero, ends_throw] at h
    exact h.elim
  rw [if_neg hzero] at h
  obtain ⟨rfl, rfl⟩ := h
  obtain ⟨hwz, hhz⟩ := not_or.mp hzero
  simp only [LayoutParser.drop] at e₁ e₂ e₃ e₄ e₅ e₆ e₇
  refine ⟨_, r₇, ?_, ⟨w, hh, xs, ys, hw, hhs, hxs, hys, hwz, hhz, rfl⟩, rfl⟩
  rw [e₁, e₂, e₃, e₄, e₅, e₆, e₇]
  simp

end Tokens

/-! ## Nodes -/

def floatsIn (floatingIds : ExtTreeSet PaneId) : PaneId → Bool := fun id => floatingIds.contains id

/-- From `s` to `s'` the parser read the trees, whose spellings are `text`. -/
structure Reads (floats : PaneId → Bool) (trees : List LayoutTree) (text : Bytes)
    (s s' : LayoutParser) : Prop where
  text : s.rest = text ++ s'.rest
  panes : s'.panes = s.panes ++ trees.flatMap LayoutTree.panes
  dividers : s'.dividers = s.dividers ++ trees.flatMap (LayoutTree.dividers floats)
  partitioned : ∀ tree ∈ trees, tree.Partitioned floats
  counted : s.nodes ≤ s'.nodes
  bounded : s.nodes ≤ maxLayoutNodes → s'.nodes ≤ maxLayoutNodes

def nodeOf (floats : PaneId → Bool) (tree : LayoutTree) : ParsedNode := ⟨tree.rect, tree.floating floats⟩

/-- A successful run of `node` reads one tree that passes `accepts`. -/
def ReadsTree (floats : PaneId → Bool) (accepts : NodeRect → Prop) (node : ParseM ParsedNode) : Prop :=
  ∀ s parsed s', Ends node s parsed s' → ∃ tree text, Reads floats [tree] text s s' ∧
    s.nodes < s'.nodes ∧ tree.Spells text ∧ parsed = nodeOf floats tree ∧ accepts tree.rect

section Nodes

variable {floats : PaneId → Bool} {accepts : NodeRect → Prop} {node : ParseM ParsedNode}

theorem reads_siblings (hnode : ReadsTree floats accepts node) (close : UInt8) (fuel : Nat)
    (s s' : LayoutParser) (children : List ParsedNode)
    (h : Ends (parseSiblings node close fuel) s children s') :
    ∃ trees texts, Reads floats trees ([comma].intercalate texts ++ [close]) s s' ∧
      Forall₂ LayoutTree.Spells trees texts ∧ children = trees.map (nodeOf floats) ∧
      trees ≠ [] ∧ ∀ tree ∈ trees, accepts tree.rect := by
  induction fuel generalizing s s' children with
  | zero => exact (ends_outOfFuel.mp h).elim
  | succ fuel ih =>
    rw [parseSiblings, ends_bind] at h
    obtain ⟨child, s₁, hchild, h⟩ := h
    obtain ⟨tree, text, hreads, -, hspells, rfl, hrect⟩ := hnode s child s₁ hchild
    rw [ends_bind] at h
    obtain ⟨next, s₂, hpeek, h⟩ := h
    obtain ⟨rfl, rfl⟩ := ends_peek.mp hpeek
    by_cases hclose : s₂.rest.head? = some close
    · rw [if_pos hclose, ends_bind] at h
      obtain ⟨u, s₃, hadv, h⟩ := h
      rw [ends_advance] at hadv
      obtain ⟨rfl, rfl⟩ := ends_pure.mp h
      subst hadv
      refine ⟨[tree], [text], ?_, .cons hspells .nil, rfl, by simp, by simpa using hrect⟩
      refine ⟨?_, hreads.panes, hreads.dividers, hreads.partitioned, hreads.counted, hreads.bounded⟩
      have htext := hreads.text
      rw [rest_of_head? hclose] at htext
      simpa [LayoutParser.drop] using htext
    rw [if_neg hclose] at h
    by_cases hcomma : s₂.rest.head? = some comma
    · rw [if_pos hcomma, ends_bind] at h
      obtain ⟨u, s₃, hadv, h⟩ := h
      rw [ends_advance] at hadv
      rw [ends_bind] at h
      obtain ⟨others, s₄, hothers, h⟩ := h
      obtain ⟨rfl, rfl⟩ := ends_pure.mp h
      obtain ⟨trees, texts, hrest, hforall, rfl, hne, hrects⟩ := ih s₃ s₄ others hothers
      subst hadv
      refine ⟨tree :: trees, text :: texts, ?_, .cons hspells hforall, rfl, by simp, ?_⟩
      · constructor
        · have htexts : texts ≠ [] := by
            intro hnil
            rw [hnil] at hforall
            exact hne (forall₂_nil_right_iff.mp hforall)
          obtain ⟨other, others, rfl⟩ := exists_cons_of_ne_nil htexts
          have htext := hreads.text
          have htail : s₂.rest.tail = [comma].intercalate (other :: others) ++ [close] ++ s₄.rest := hrest.text
          rw [rest_of_head? hcomma, htail] at htext
          rw [htext]
          simp
        · rw [hrest.panes]
          show s₂.panes ++ _ = _
          rw [hreads.panes]
          simp
        · rw [hrest.dividers]
          show s₂.dividers ++ _ = _
          rw [hreads.dividers]
          simp
        · intro t ht
          obtain rfl | ht := mem_cons.mp ht
          · exact hreads.partitioned t mem_cons_self
          · exact hrest.partitioned t ht
        · exact Nat.le_trans hreads.counted hrest.counted
        · exact fun hb => hrest.bounded (hreads.bounded hb)
      · intro t ht
        obtain rfl | ht := mem_cons.mp ht
        · exact hrect
        · exact hrects t ht
    · rw [if_neg hcomma, ends_throw] at h
      exact h.elim

theorem tiledRects_map (trees : List LayoutTree) :
    tiledRects (trees.map (nodeOf floats)) = (tiledOf floats trees).map LayoutTree.rect := by
  rw [tiledRects, filter_map, map_map]
  rfl

theorem joinChildren_spec {kind : SplitKind} {rect : NodeRect} {trees : List LayoutTree}
    {joined : Bool × List Divider}
    (h : joinChildren kind rect (trees.map (nodeOf floats)) = .ok joined) : 2 ≤ trees.length ∧
      (tiledOf floats trees = [] ∨
        validPartition kind rect ((tiledOf floats trees).map LayoutTree.rect) = true) ∧
      joined = ((split rect kind trees).floating floats, ownDividers floats rect kind trees) := by
  have hfloat : (split rect kind trees).floating floats = (tiledOf floats trees).isEmpty := by
    rw [Bool.eq_iff_iff, floating_split, List.isEmpty_iff]
  rw [joinChildren] at h
  simp only [tiledRects_map, length_map] at h
  by_cases htwo : trees.length < 2
  · rw [if_pos htwo] at h
    cases h
  rw [if_neg htwo] at h
  refine ⟨by omega, ?_⟩
  by_cases hshort : ¬(tiledOf floats trees).length ≠ trees.length ∧ (tiledOf floats trees).length < 2
  · rw [if_pos hshort] at h
    cases h
  rw [if_neg hshort] at h
  by_cases hone : (tiledOf floats trees).length ≠ trees.length ∧ (tiledOf floats trees).length ≤ 1
  · rw [if_pos hone] at h
    cases htiled : tiledOf floats trees with
    | nil =>
      rw [htiled] at h hfloat
      refine ⟨.inl rfl, ?_⟩
      simp only [map_nil, head?_nil, Option.any_none, Bool.false_eq_true, if_false, Except.ok.injEq] at h
      rw [← h, hfloat, ownDividers, htiled]
      rfl
    | cons child others =>
      have hlen := hone.2
      rw [htiled] at h hfloat hlen
      have hothers : others = [] := by
        simpa using hlen
      subst hothers
      simp only [map_cons, head?_cons, Option.any_some, bne_iff_ne] at h
      by_cases hrect : child.rect ≠ rect
      · rw [if_pos hrect] at h
        cases h
      rw [if_neg hrect, Except.ok.injEq] at h
      have hrect : child.rect = rect := not_not.mp hrect
      constructor
      · refine .inr ?_
        cases kind with
        | leftRight => simp [validPartition, firstFits, lastFits, pairs, hrect]
        | topBottom => simp [validPartition, firstFits, lastFits, pairs, hrect]
      · rw [← h, hfloat, ownDividers, htiled]
        rfl
  rw [if_neg hone] at h
  by_cases hvalid : validPartition kind rect ((tiledOf floats trees).map LayoutTree.rect) = true
  · rw [hvalid] at h
    simp only [Bool.not_true, Bool.false_eq_true, if_false, Except.ok.injEq] at h
    have hsome : (tiledOf floats trees).isEmpty = false := by
      cases htiled : tiledOf floats trees with
      | nil =>
        rw [htiled] at hone hshort
        simp only [length_nil] at hone hshort
        omega
      | cons child others => rfl
    refine ⟨.inr hvalid, ?_⟩
    rw [← h, hfloat, hsome]
    rfl
  · have hbad : (!validPartition kind rect ((tiledOf floats trees).map LayoutTree.rect)) = true := by
      simpa using hvalid
    rw [if_pos hbad] at h
    cases h

end Nodes

section Grammar

variable {floatingIds : ExtTreeSet PaneId} {s s' : LayoutParser} {rect : NodeRect} {head : Bytes}

/-- What follows the rectangle of a node is the rest of the text of one tree. -/
def ReadsBody (floatingIds : ExtTreeSet PaneId) (rect : NodeRect) (s s' : LayoutParser)
    (floating : Bool) : Prop :=
  ∃ tree body, Reads (floatsIn floatingIds) [tree] body s s' ∧
    (∀ head, SpelledRect rect head → tree.Spells (head ++ body)) ∧ tree.rect = rect ∧
    floating = tree.floating (floatsIn floatingIds)

theorem reads_pane {floating : Bool} (hnext : s.rest.head? = some comma)
    (h : Ends (parsePane floatingIds rect) s floating s') : ReadsBody floatingIds rect s s' floating := by
  rw [parsePane, ends_bind] at h
  obtain ⟨u, s₁, hadv, h⟩ := h
  rw [ends_advance] at hadv
  subst hadv
  rw [ends_bind] at h
  obtain ⟨id, s₂, hid, h⟩ := h
  obtain ⟨digits, rest, htext, hspell, rfl⟩ := ends_numberU64 hid
  rw [ends_bind] at h
  obtain ⟨v, s₃, hpush, h⟩ := h
  rw [ends_modify] at hpush
  obtain ⟨rfl, rfl⟩ := ends_pure.mp h
  subst hpush
  refine ⟨.pane rect ⟨id⟩, comma :: digits, ⟨?_, ?_, ?_, ?_, ?_, ?_⟩, ?_, rfl, ?_⟩
  · have htail : s.rest.tail = digits ++ rest := htext
    rw [rest_of_head? hnext, htail]
    rfl
  · simp [pushPane, LayoutParser.drop, LayoutTree.panes, layoutPane]
  · simp [pushPane, LayoutParser.drop, LayoutTree.dividers]
  · intro tree ht
    rw [mem_singleton.mp ht]
    exact .pane rect ⟨id⟩
  · exact le_rfl
  · exact fun hb => hb
  · exact fun head hhead => .pane rect ⟨id⟩ head digits hhead hspell
  · simp [LayoutTree.floating, floatsIn]

theorem reads_children {node : ParseM ParsedNode} {fuel : Nat} {kind : SplitKind} {floating : Bool}
    (hnode : ReadsTree (floatsIn floatingIds) (fun child => rect.contains child = true) node)
    (hnext : s.rest.head? = some (openOf kind))
    (h : Ends (parseChildren node fuel rect kind (closeOf kind)) s floating s') :
    ReadsBody floatingIds rect s s' floating := by
  rw [parseChildren, ends_bind] at h
  obtain ⟨u, s₁, hadv, h⟩ := h
  rw [ends_advance] at hadv
  subst hadv
  rw [ends_bind] at h
  obtain ⟨children, s₂, hchildren, h⟩ := h
  obtain ⟨trees, texts, hreads, hspells, rfl, -, hinside⟩ :=
    reads_siblings hnode (closeOf kind) fuel _ _ _ hchildren
  rw [ends_bind] at h
  obtain ⟨joined, s₃, hjoin, h⟩ := h
  rw [ends_settle] at hjoin
  obtain ⟨hjoin, rfl⟩ := hjoin
  obtain ⟨htwo, hvalid, rfl⟩ := joinChildren_spec hjoin
  rw [ends_bind] at h
  obtain ⟨v, s₄, hpush, h⟩ := h
  rw [ends_modify] at hpush
  obtain ⟨rfl, rfl⟩ := ends_pure.mp h
  subst hpush
  refine ⟨.split rect kind trees, openOf kind :: ([comma].intercalate texts ++ [closeOf kind]),
    ⟨?_, ?_, ?_, ?_, hreads.counted, hreads.bounded⟩, ?_, rfl, rfl⟩
  · have htail : s.rest.tail = [comma].intercalate texts ++ [closeOf kind] ++ s₂.rest := hreads.text
    rw [rest_of_head? hnext, htail]
    rfl
  · have hpanes : s₂.panes = s.panes ++ trees.flatMap LayoutTree.panes := hreads.panes
    simp [pushDividers, hpanes, LayoutTree.panes]
  · have hdividers : s₂.dividers =
        s.dividers ++ trees.flatMap (LayoutTree.dividers (floatsIn floatingIds)) := hreads.dividers
    simp [pushDividers, hdividers, LayoutTree.dividers]
  · intro tree ht
    rw [mem_singleton.mp ht]
    exact .split rect kind trees hreads.partitioned hinside hvalid
  · exact fun head hhead => .split rect kind trees head texts hhead htwo hspells

theorem reads_body {node : ParseM ParsedNode} {fuel : Nat} {floating : Bool}
    (hnode : ReadsTree (floatsIn floatingIds) (fun child => rect.contains child = true) node)
    (h : Ends (parseBody floatingIds node fuel rect s.rest.head?) s floating s') :
    ReadsBody floatingIds rect s s' floating := by
  rw [parseBody] at h
  by_cases hbrace : s.rest.head? = some openBrace
  · rw [if_pos hbrace] at h
    have hnext : s.rest.head? = some (openOf .leftRight) := hbrace
    exact reads_children hnode hnext h
  rw [if_neg hbrace] at h
  by_cases hbracket : s.rest.head? = some openBracket
  · rw [if_pos hbracket] at h
    have hnext : s.rest.head? = some (openOf .topBottom) := hbracket
    exact reads_children hnode hnext h
  rw [if_neg hbracket] at h
  by_cases hcomma : s.rest.head? = some comma
  · rw [if_pos hcomma] at h
    exact reads_pane hcomma h
  · rw [if_neg hcomma, ends_throw] at h
    exact h.elim

/-- **A successful run of `parse_node` reads the text of one tree, and every split of the tree
passed its checks.** -/
theorem reads_node (floatingIds : ExtTreeSet PaneId) (fuel depthLeft : Nat) (parent : Option NodeRect) :
    ReadsTree (floatsIn floatingIds) (fun rect => isOutside parent rect = false)
      (parseNode floatingIds fuel depthLeft parent) := by
  induction depthLeft generalizing parent with
  | zero => exact fun s parsed s' h => (ends_throw.mp h).elim
  | succ depthLeft ih =>
    intro s parsed s' h
    rw [parseNode, ends_bind] at h
    obtain ⟨t, t', hget, h⟩ := h
    obtain ⟨rfl, rfl⟩ := ends_get.mp hget
    by_cases hfull : s.nodes = maxLayoutNodes
    · rw [if_pos hfull, ends_throw] at h
      exact h.elim
    rw [if_neg hfull, ends_bind] at h
    obtain ⟨u, s₁, hcount, h⟩ := h
    rw [ends_modify] at hcount
    subst hcount
    rw [ends_bind] at h
    obtain ⟨rect, s₂, hrect, h⟩ := h
    obtain ⟨head, rest, htext, hhead, rfl⟩ := ends_parseRect hrect
    cases houtside : isOutside parent rect with
    | true =>
      rw [if_pos houtside, ends_throw] at h
      exact h.elim
    | false =>
      rw [if_neg (by simp [houtside]), ends_bind] at h
      obtain ⟨next, s₃, hpeek, h⟩ := h
      obtain ⟨rfl, rfl⟩ := ends_peek.mp hpeek
      rw [ends_bind] at h
      obtain ⟨floating, s₄, hbody, h⟩ := h
      obtain ⟨rfl, rfl⟩ := ends_pure.mp h
      have hinside : ReadsTree (floatsIn floatingIds) (fun child => rect.contains child = true)
          (parseNode floatingIds fuel depthLeft (some rect)) := by
        intro s parsed s' hchild
        obtain ⟨tree, text, hreads, hlt, hspells, hparsed, hin⟩ := ih (some rect) s parsed s' hchild
        exact ⟨tree, text, hreads, hlt, hspells, hparsed, by simpa [isOutside] using hin⟩
      obtain ⟨tree, body, hreads, hspells, htree, rfl⟩ := reads_body hinside hbody
      refine ⟨tree, head ++ body, ⟨?_, hreads.panes, hreads.dividers, hreads.partitioned, ?_, ?_⟩,
        ?_, hspells head hhead, ?_, ?_⟩
      · have hrest : rest = body ++ s₄.rest := hreads.text
        have hstart : s.rest = head ++ rest := htext
        rw [hstart, hrest, append_assoc]
      · exact Nat.le_trans (Nat.le_succ _) hreads.counted
      · intro hb
        apply hreads.bounded
        exact Nat.lt_of_le_of_ne hb hfull
      · exact hreads.counted
      · rw [nodeOf, htree]
      · rw [htree]
        exact houtside

end Grammar

end Lector.Layout
