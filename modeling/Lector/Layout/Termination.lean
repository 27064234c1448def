import Lector.Layout.Reading

/-! The node bound ends every parse: one round of fuel more than there can be nodes is enough, and
more fuel changes nothing. -/
namespace Lector.Layout
open Std Lector.Topology Fueled LayoutTree Refines

/-! ## Parts without loops -/

theorem total_peek : Total peek := total_get.bind fun _ => total_pure _

theorem total_advance : Total advance := total_modify _

theorem total_expect (expected : UInt8) : Total (expect expected) :=
  total_peek.bind fun _ => total_advance.ite (total_throw _)

theorem total_numberU64 : Total numberU64 :=
  total_get.bind fun _ => (total_modify _).bind fun _ => (total_throw _).ite (total_settle _)

theorem total_numberU16 : Total numberU16 := total_numberU64.bind fun _ => (total_pure _).ite (total_throw _)

theorem total_parseRect : Total parseRect := by
  apply total_numberU16.bind
  intro width
  apply (total_expect _).bind
  intro _
  apply total_numberU16.bind
  intro height
  apply (total_expect _).bind
  intro _
  apply total_numberU16.bind
  intro x
  apply (total_expect _).bind
  intro _
  apply total_numberU16.bind
  intro y
  exact (total_throw _).ite (total_pure _)

variable (floatingIds : ExtTreeSet PaneId)

theorem total_parsePane (rect : NodeRect) : Total (parsePane floatingIds rect) :=
  total_advance.bind fun _ => total_numberU64.bind fun _ => (total_modify _).bind fun _ => total_pure _

/-! ## Loops -/

/-- `node` ends from every state that respects the node bound. -/
def HaltsInBounds (node : ParseM ParsedNode) : Prop :=
  ∀ s : LayoutParser, s.nodes ≤ maxLayoutNodes → Halts node s

section Loops

variable {floats : PaneId → Bool} {accepts : NodeRect → Prop} {node : ParseM ParsedNode}

theorem halts_siblings (hhalts : HaltsInBounds node) (hnode : ReadsTree floats accepts node)
    (close : UInt8) (fuel : Nat) (s : LayoutParser) (hs : s.nodes ≤ maxLayoutNodes)
    (hfuel : maxLayoutNodes < fuel + s.nodes) : Halts (parseSiblings node close fuel) s := by
  induction fuel generalizing s with
  | zero => omega
  | succ fuel ih =>
    apply halts_bind (hhalts s hs)
    intro child s₁ hchild
    obtain ⟨tree, text, hreads, hlt, -⟩ := hnode s child s₁ hchild
    have hs₁ := hreads.bounded hs
    apply halts_bind (total_peek s₁)
    intro next s₂ hpeek
    obtain ⟨rfl, rfl⟩ := ends_peek.mp hpeek
    by_cases hclose : s₂.rest.head? = some close
    · rw [if_pos hclose]
      exact total_advance.bind (fun _ => total_pure _) s₂
    rw [if_neg hclose]
    by_cases hcomma : s₂.rest.head? = some comma
    · rw [if_pos hcomma]
      apply halts_bind (total_advance s₂)
      intro u s₃ hadv
      rw [ends_advance] at hadv
      have hnodes : s₃.nodes = s₂.nodes := by rw [hadv, LayoutParser.drop]
      apply halts_bind
      · exact ih s₃ (by omega) (by omega)
      · exact fun others s₄ _ => total_pure _ s₄
    · rw [if_neg hcomma]
      exact total_throw _ s₂

theorem halts_forest (hhalts : HaltsInBounds node) (hnode : ReadsTree floats accepts node)
    (fuel : Nat) (s : LayoutParser) (hs : s.nodes ≤ maxLayoutNodes)
    (hfuel : maxLayoutNodes < fuel + s.nodes) : Halts (parseForest node fuel) s := by
  induction fuel generalizing s with
  | zero => omega
  | succ fuel ih =>
    apply halts_bind (hhalts s hs)
    intro child s₁ hchild
    obtain ⟨tree, text, hreads, hlt, -⟩ := hnode s child s₁ hchild
    have hs₁ := hreads.bounded hs
    apply halts_bind (total_get s₁)
    intro t s₂ hget
    obtain ⟨rfl, rfl⟩ := ends_get.mp hget
    by_cases hend : s₁.rest = []
    · rw [if_pos hend]
      exact total_pure _ s₁
    · rw [if_neg hend]
      apply halts_bind (total_expect comma s₁)
      intro u s₃ hexpect
      obtain ⟨rest, -, rfl⟩ := ends_expect hexpect
      exact ih _ hs₁ (by simp only [LayoutParser.drop]; omega)

theorem halts_children (hhalts : HaltsInBounds node) (hnode : ReadsTree floats accepts node) {fuel : Nat}
    (hfuel : maxLayoutNodes < fuel) (rect : NodeRect) (kind : SplitKind) (close : UInt8) (s : LayoutParser)
    (hs : s.nodes ≤ maxLayoutNodes) : Halts (parseChildren node fuel rect kind close) s := by
  apply halts_bind (total_advance s)
  intro u s₁ hadv
  rw [ends_advance] at hadv
  have hnodes : s₁.nodes = s.nodes := by rw [hadv, LayoutParser.drop]
  apply halts_bind
  · exact halts_siblings hhalts hnode close fuel s₁ (by omega) (by omega)
  · intro children s₂ _
    exact (total_settle _).bind (fun _ => (total_modify _).bind fun _ => total_pure _) s₂

end Loops

variable {fuel fuel' : Nat}

theorem halts_node (hfuel : maxLayoutNodes < fuel) (depthLeft : Nat)
    (parent : Option NodeRect) : HaltsInBounds (parseNode floatingIds fuel depthLeft parent) := by
  induction depthLeft generalizing parent with
  | zero => exact fun s _ => total_throw _ s
  | succ depthLeft ih =>
    intro s hs
    apply halts_bind (total_get s)
    intro t s₁ hget
    obtain ⟨rfl, rfl⟩ := ends_get.mp hget
    by_cases hfull : s.nodes = maxLayoutNodes
    · rw [if_pos hfull]
      exact total_throw _ s
    rw [if_neg hfull]
    apply halts_bind (total_modify _ s)
    intro u s₂ hcount
    rw [ends_modify] at hcount
    apply halts_bind (total_parseRect s₂)
    intro rect s₃ hrect
    obtain ⟨head, rest, -, -, rfl⟩ := ends_parseRect hrect
    have hnodes : (s₂.drop rest).nodes ≤ maxLayoutNodes := by
      rw [← hcount]
      exact Nat.lt_of_le_of_ne hs hfull
    by_cases houtside : isOutside parent rect = true
    · rw [if_pos houtside]
      exact total_throw _ _
    rw [if_neg houtside]
    apply halts_bind (total_peek _)
    intro next s₄ hpeek
    obtain ⟨rfl, rfl⟩ := ends_peek.mp hpeek
    have hread := reads_node floatingIds fuel depthLeft (some rect)
    apply halts_bind
    · rw [parseBody]
      by_cases hbrace : (s₂.drop rest).rest.head? = some openBrace
      · rw [if_pos hbrace]
        exact halts_children (ih _) hread hfuel _ _ _ _ hnodes
      rw [if_neg hbrace]
      by_cases hbracket : (s₂.drop rest).rest.head? = some openBracket
      · rw [if_pos hbracket]
        exact halts_children (ih _) hread hfuel _ _ _ _ hnodes
      rw [if_neg hbracket]
      exact (total_parsePane _ _).ite (total_throw _) _
    · exact fun floating s₅ _ => total_pure _ s₅

theorem halts_parts (hfuel : maxLayoutNodes < fuel) (layout : Bytes) : Total (parseParts fuel layout) := by
  have hroot : ∀ ids, HaltsInBounds (parseRoot ids fuel) := fun ids =>
    halts_node ids hfuel (maxLayoutDepth + 1) none
  have hfloating : ∀ text, Total (parseFloatingPanes fuel text) := by
    intro text
    cases text with
    | none => exact total_pure _
    | some text =>
      intro t
      apply halts_bind
      · apply halts_isolated
        exact halts_forest (hroot ∅) (reads_node ∅ fuel _ none) fuel _ (Nat.zero_le _) hfuel
      · exact fun ended t' _ => (total_throw _).ite (total_pure _) t'
  apply (total_settle _).bind
  intro split
  apply (hfloating split.2).bind
  intro floatingPanes
  apply (total_settle _).bind
  intro floatingIds
  apply Total.bind
  · exact fun t => halts_isolated (hroot floatingIds _ (Nat.zero_le _)) t
  · intro ended
    apply (total_throw _).ite
    exact (total_settle _).bind fun _ => (total_pure _).ite (total_throw _)

/-! ## More fuel -/

theorem Refines.siblings {node node' : ParseM ParsedNode} (h : Refines node node') (close : UInt8)
    (hle : fuel ≤ fuel') : Refines (parseSiblings node close fuel) (parseSiblings node' close fuel') := by
  induction fuel generalizing fuel' with
  | zero => exact refines_outOfFuel _
  | succ fuel ih =>
    obtain ⟨more, rfl⟩ := Nat.exists_eq_add_of_le hle
    have hmore : fuel + 1 + more = (fuel + more) + 1 := by omega
    rw [hmore]
    apply h.bind
    intro child
    apply rfl.bind
    intro next
    apply rfl.ite
    apply ite _ rfl
    apply rfl.bind
    intro _
    exact (ih (Nat.le_add_right fuel more)).bind fun _ => rfl

theorem Refines.forest {node node' : ParseM ParsedNode} (h : Refines node node')
    (hle : fuel ≤ fuel') : Refines (parseForest node fuel) (parseForest node' fuel') := by
  induction fuel generalizing fuel' with
  | zero => exact refines_outOfFuel _
  | succ fuel ih =>
    obtain ⟨more, rfl⟩ := Nat.exists_eq_add_of_le hle
    have hmore : fuel + 1 + more = (fuel + more) + 1 := by omega
    rw [hmore]
    apply h.bind
    intro _
    apply rfl.bind
    intro s
    apply rfl.ite
    exact rfl.bind fun _ => ih (Nat.le_add_right fuel more)

theorem refines_node (hle : fuel ≤ fuel') (depthLeft : Nat) (parent : Option NodeRect) :
    Refines (parseNode floatingIds fuel depthLeft parent) (parseNode floatingIds fuel' depthLeft parent) := by
  induction depthLeft generalizing parent with
  | zero => exact rfl
  | succ depthLeft ih =>
    have hchildren : ∀ rect kind close,
        Refines (parseChildren (parseNode floatingIds fuel depthLeft (some rect)) fuel rect kind close)
          (parseChildren (parseNode floatingIds fuel' depthLeft (some rect)) fuel' rect kind close) :=
      fun rect kind close => rfl.bind fun _ => (Refines.siblings (ih (some rect)) close hle).bind fun _ => rfl
    apply rfl.bind
    intro s
    apply rfl.ite
    apply rfl.bind
    intro _
    apply rfl.bind
    intro rect
    apply rfl.ite
    apply rfl.bind
    intro next
    apply bind _ fun _ => rfl
    exact (hchildren _ _ _).ite ((hchildren _ _ _).ite rfl)

theorem refines_parts (hle : fuel ≤ fuel') (layout : Bytes) :
    Refines (parseParts fuel layout) (parseParts fuel' layout) := by
  have hroot : ∀ ids, Refines (parseRoot ids fuel) (parseRoot ids fuel') := fun ids =>
    refines_node ids hle (maxLayoutDepth + 1) none
  have hfloating : ∀ text, Refines (parseFloatingPanes fuel text) (parseFloatingPanes fuel' text) := by
    intro text
    cases text with
    | none => exact rfl
    | some text => exact ((Refines.forest (hroot ∅) hle).isolated _).bind fun _ => rfl
  apply rfl.bind
  intro split
  apply (hfloating split.2).bind
  intro floatingPanes
  apply rfl.bind
  intro floatingIds
  exact ((hroot floatingIds).isolated _).bind fun _ => rfl

/-- **`parse` ends on every string, and no number of further rounds changes its result.** -/
theorem parseWith_stable (hfuel : maxLayoutNodes < fuel) (layout : Bytes) :
    ∃ result, TmuxLayout.parseWith (maxLayoutNodes + 1) layout = some result ∧
      TmuxLayout.parseWith fuel layout = some result := by
  have hends := halts_parts (Nat.lt_succ_self maxLayoutNodes) layout ⟨⟩
  obtain ⟨r, hr⟩ := Option.ne_none_iff_exists'.mp hends
  have hmore := refines_parts hfuel layout ⟨⟩ r hr
  exact ⟨r.map Prod.fst, by rw [TmuxLayout.parseWith, hr]; rfl, by rw [TmuxLayout.parseWith, hmore]; rfl⟩

end Lector.Layout
