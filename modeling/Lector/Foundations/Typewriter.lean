import Mathlib.Algebra.GroupWithZero.Nat
import Mathlib.Data.List.Basic

/-! A typewriter: a sign goes behind the others on its line, and to the next line where it has no room. What
the rest of a line shows is decided when the line comes in. -/
namespace Lector.Typewriting
open List

/-- The ground of a line goes by its number and by the style that the typewriter has when it comes in. -/
structure Typewriter (γ σ δ : Type) where
  width : Nat
  ink : γ → List δ
  style : γ → σ
  ground : Nat → σ → δ

structure Paper (σ δ : Type) where
  lines : List (List δ)
  line : List δ
  ground : δ
  style : σ

/-- Rows of signs, each with whether the next belongs to it. -/
abbrev Row (γ : Type) := List γ × Bool

/-- The signs of the rows that belong together. -/
def paragraphs {γ : Type} : List (Row γ) → List (List γ)
  | [] => []
  | row :: rest =>
    if row.2 then
      match paragraphs rest with
      | [] => [row.1]
      | joined :: others => (row.1 ++ joined) :: others
    else row.1 :: paragraphs rest

namespace Typewriter

variable {γ σ δ : Type} (t : Typewriter γ σ δ) (signs : List γ)

def columns : Nat := (signs.map fun sign => (t.ink sign).length).sum

def styleAfter (style : σ) (signs : List γ) : σ := signs.foldl (fun _ sign => t.style sign) style

section

variable (paper : Paper σ δ)

def full : List δ := paper.line ++ List.replicate (t.width - paper.line.length) paper.ground

def lineBreak : Paper σ δ :=
  { paper with
    lines := paper.lines ++ [t.full paper]
    line := []
    ground := t.ground (paper.lines.length + 1) paper.style }

def print (sign : γ) : Paper σ δ :=
  let inked := { paper with style := t.style sign }
  let placed := if paper.line.length + (t.ink sign).length ≤ t.width then inked else t.lineBreak inked
  { placed with line := placed.line ++ t.ink sign }

def type (signs : List γ) : Paper σ δ := signs.foldl t.print paper

end

/-- Each paragraph on a line of its own; the `first` is typed where the paper stands. -/
def typeParagraphs : Bool → Paper σ δ → List (List γ) → Paper σ δ
  | _, paper, [] => paper
  | first, paper, signs :: rest =>
    typeParagraphs false (t.type (if first then paper else t.lineBreak paper) signs) rest

/-- The same by rows: one that belongs to the row before goes on where that ended. -/
def typeRows : Bool → Paper σ δ → List (Row γ) → Paper σ δ
  | _, paper, [] => paper
  | joined, paper, row :: rest =>
    typeRows row.2 (t.type (if joined then paper else t.lineBreak paper) row.1) rest

theorem type_append (paper : Paper σ δ) (signs more : List γ) :
    t.type paper (signs ++ more) = t.type (t.type paper signs) more :=
  foldl_append

theorem columns_cons (sign : γ) (signs : List γ) :
    t.columns (sign :: signs) = (t.ink sign).length + t.columns signs := by
  rfl

theorem length_flatMap_ink : (signs.flatMap t.ink).length = t.columns signs := by
  rw [length_flatMap]
  rfl

theorem typeParagraphs_paragraphs (first : Bool) (paper : Paper σ δ) (rows : List (Row γ)) :
    t.typeParagraphs first paper (paragraphs rows) = t.typeRows first paper rows := by
  induction rows generalizing first paper with
  | nil => rfl
  | cons row rest ih =>
    rw [typeRows, paragraphs]
    cases hjoined : row.2 with
    | false => exact ih false _
    | true =>
      have hon := ih true (t.type (if first then paper else t.lineBreak paper) row.1)
      rw [if_pos rfl, ← hon]
      cases paragraphs rest with
      | nil => rfl
      | cons joined others =>
        rw [typeParagraphs, type_append]
        rfl

section

variable (paper : Paper σ δ)
include paper

theorem print_room (sign : γ) (hroom : paper.line.length + (t.ink sign).length ≤ t.width) :
    t.print paper sign = { paper with line := paper.line ++ t.ink sign, style := t.style sign } := by
  unfold print
  simp only [if_pos hroom]

theorem print_full (sign : γ) (hfull : t.width < paper.line.length + (t.ink sign).length) : t.print paper sign =
      ⟨paper.lines ++ [t.full paper], t.ink sign, t.ground (paper.lines.length + 1) (t.style sign),
        t.style sign⟩ := by
  unfold print
  simp only [if_neg (Nat.not_le.mpr hfull)]
  rfl

theorem print_style (sign : γ) : (t.print paper sign).style = t.style sign := by
  unfold print
  split <;> rfl

theorem type_style (signs : List γ) : (t.type paper signs).style = t.styleAfter paper.style signs := by
  induction signs generalizing paper with
  | nil => rfl
  | cons sign signs ih => exact (ih (t.print paper sign)).trans (by rw [print_style]; rfl)

end

/-! ## Rows that are short enough -/

/-- Not behind column `column` of line `index`. -/
def Within (paper : Paper σ δ) (index column : Nat) : Prop :=
  paper.lines.length < index ∨ paper.lines.length = index ∧ paper.line.length ≤ column

variable {paper : Paper σ δ} {index column : Nat}

section

variable (h : Within paper index column)
include h

theorem lineBreak_within : Within (t.lineBreak paper) (index + 1) 0 := by
  have hlines : (t.lineBreak paper).lines.length = paper.lines.length + 1 := by simp [lineBreak]
  have hline : (t.lineBreak paper).line.length = 0 := rfl
  unfold Within at h ⊢
  omega

theorem print_within (sign : γ) (hroom : column + (t.ink sign).length ≤ t.width) :
    Within (t.print paper sign) index (column + (t.ink sign).length) := by
  unfold Within at h ⊢
  unfold print
  split
  · simp only [length_append]
    omega
  · simp only [lineBreak, length_append, length_singleton, length_nil]
    omega

theorem type_within (signs : List γ) (hroom : column + t.columns signs ≤ t.width) :
    Within (t.type paper signs) index (column + t.columns signs) := by
  induction signs generalizing paper column with
  | nil => exact h
  | cons sign signs ih =>
    rw [columns_cons, ← Nat.add_assoc] at hroom ⊢
    exact ih (t.print_within h sign (by omega)) hroom

/-- **Rows are not typed on more lines than they are**, when each has room on one. -/
theorem typeRows_within
    (joined : Bool) (rows : List (Row γ)) (hfits : ∀ row ∈ rows, t.columns row.1 ≤ t.width) :
    (t.typeRows joined paper rows).lines.length ≤ index + rows.length := by
  induction rows generalizing paper index column joined with
  | nil =>
    rw [typeRows]
    unfold Within at h
    omega
  | cons row rest ih =>
    have hnext : Within (if joined then paper else t.lineBreak paper) (index + 1) 0 := by
      split
      · unfold Within at h ⊢
        omega
      · exact t.lineBreak_within h
    have htyped := t.type_within hnext row.1 (by
      rw [Nat.zero_add]
      exact hfits row mem_cons_self)
    have hrest := ih htyped row.2 fun other hmem => hfits other (mem_cons_of_mem _ hmem)
    rw [typeRows, length_cons]
    omega

end

theorem lines_le_print (paper : Paper σ δ) (sign : γ) :
    paper.lines.length ≤ (t.print paper sign).lines.length := by
  unfold print
  split
  · exact Nat.le_refl _
  · simp [lineBreak]

theorem lines_le_type (paper : Paper σ δ) (signs : List γ) :
    paper.lines.length ≤ (t.type paper signs).lines.length := by
  induction signs generalizing paper with
  | nil => exact Nat.le_refl _
  | cons sign signs ih => exact Nat.le_trans (t.lines_le_print paper sign) (ih _)

theorem lines_le_typeParagraphs (first : Bool) (paper : Paper σ δ) (signs : List (List γ)) :
    paper.lines.length ≤ (t.typeParagraphs first paper signs).lines.length := by
  induction signs generalizing first paper with
  | nil => exact Nat.le_refl _
  | cons signs rest ih =>
    have hbreak : paper.lines.length ≤ (if first then paper else t.lineBreak paper).lines.length := by
      split
      · exact Nat.le_refl _
      · simp [lineBreak]
    exact Nat.le_trans hbreak (Nat.le_trans (t.lines_le_type _ signs) (ih false _))

/-! ## Rows that are broken as the typewriter breaks them -/

/-- A row goes over in the next because the next sign has no room in it. -/
def Continues (row next : Row γ) : Prop :=
  row.2 = true → ∃ sign, next.1.head? = some sign ∧ t.width < t.columns row.1 + (t.ink sign).length

/-- The style in which the line of a row comes in. -/
def arrivalStyle (style : σ) (joined : Bool) (signs : List γ) : σ :=
  if joined then signs.head?.elim style t.style else style

def laid : Nat → σ → Bool → List (Row γ) → List (List δ)
  | _, _, _, [] => []
  | index, style, joined, row :: rest =>
    (row.1.flatMap t.ink ++
        List.replicate (t.width - t.columns row.1) (t.ground index (t.arrivalStyle style joined row.1))) ::
      laid (index + 1) (t.styleAfter style row.1) row.2 rest

theorem type_room (hroom : paper.line.length + t.columns signs ≤ t.width) : t.type paper signs =
      { paper with line := paper.line ++ signs.flatMap t.ink, style := t.styleAfter paper.style signs } := by
  induction signs generalizing paper with
  | nil =>
    rw [flatMap_nil, append_nil]
    rfl
  | cons sign signs ih =>
    rw [columns_cons] at hroom
    have hcons : t.type paper (sign :: signs) = t.type (t.print paper sign) signs := rfl
    rw [hcons, t.print_room paper sign (by omega), ih (by rw [length_append]; omega), append_assoc]
    rfl

theorem type_next (paper : Paper σ δ) (joined : Bool) (signs : List γ) (hnext : joined = true →
      ∃ sign, signs.head? = some sign ∧ t.width < paper.line.length + (t.ink sign).length)
    (hfits : t.columns signs ≤ t.width) :
    t.type (if joined then paper else t.lineBreak paper) signs =
      ⟨paper.lines ++ [t.full paper], signs.flatMap t.ink,
        t.ground (paper.lines.length + 1) (t.arrivalStyle paper.style joined signs),
        t.styleAfter paper.style signs⟩ := by
  cases joined with
  | false =>
    rw [if_neg (by simp), t.type_room signs (by rw [lineBreak, length_nil]; omega)]
    rfl
  | true =>
    obtain ⟨sign, hhead, hfull⟩ := hnext rfl
    cases signs with
    | nil => cases hhead
    | cons other rest =>
      obtain rfl : other = sign := Option.some.inj hhead
      rw [columns_cons] at hfits
      have hcons : t.type paper (other :: rest) = t.type (t.print paper other) rest := rfl
      rw [if_pos rfl, hcons, t.print_full paper other hfull, t.type_room rest hfits]
      rfl

/-- **Rows come back line by line** where the typewriter breaks them as they were broken. -/
theorem typeRows_laid {row : Row γ} {rest : List (Row γ)} (hline : paper.line.length = t.columns row.1)
    (hchain : (row :: rest).IsChain t.Continues) (hfits : ∀ next ∈ rest, t.columns next.1 ≤ t.width) :
    (t.typeRows row.2 paper rest).lines ++ [t.full (t.typeRows row.2 paper rest)] =
      paper.lines ++ t.full paper :: t.laid (paper.lines.length + 1) paper.style row.2 rest := by
  induction rest generalizing paper row with
  | nil => rfl
  | cons next rest ih =>
    rw [isChain_cons_cons] at hchain
    have hnext := t.type_next paper row.2 next.1 (by rw [hline]; exact hchain.1) (hfits next mem_cons_self)
    rw [typeRows, hnext, ih (t.length_flatMap_ink next.1) hchain.2
      fun other hmem => hfits other (mem_cons_of_mem _ hmem)]
    simp only [full, length_flatMap_ink, append_assoc, length_append]
    rfl

theorem typeRows_top {ground : δ} {style : σ} (hground : ∀ style, t.ground 0 style = ground) {row : Row γ}
    {rest : List (Row γ)} (hchain : (row :: rest).IsChain t.Continues)
    (hfits : ∀ next ∈ row :: rest, t.columns next.1 ≤ t.width) :
    (t.typeRows true ⟨[], [], ground, style⟩ (row :: rest)).lines ++
        [t.full (t.typeRows true ⟨[], [], ground, style⟩ (row :: rest))] =
      t.laid 0 style true (row :: rest) := by
  rw [typeRows, if_pos rfl, t.type_room row.1 (by
      rw [length_nil, Nat.zero_add]
      exact hfits row mem_cons_self),
    t.typeRows_laid (t.length_flatMap_ink row.1) hchain
      fun next hmem => hfits next (mem_cons_of_mem _ hmem), laid, hground]
  simp only [full, nil_append, length_flatMap_ink, length_nil]

end Typewriter

end Lector.Typewriting
