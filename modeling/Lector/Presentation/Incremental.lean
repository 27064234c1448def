import Lector.Foundations.Fallible
import Lector.Presentation.CellRanges
import Lector.Presentation.Damage
import Lector.Presentation.Encoding
import Lector.Presentation.PaintersOrder

/-! The cell diff of a scene against what is presented (`incremental_batch` in `src/presentation.rs`). The
statistics are left out. -/
namespace Lector.Presentation
open Output Terminal
open List hiding max min

structure RenderCapabilities where
  synchronizedOutput : Bool
  hyperlinks : Bool
  inlineTerminalEffects : Bool
deriving DecidableEq

/-! ## Candidates -/

abbrev Candidate := Option (Nat × Nat)

def widen (candidate : Candidate) (left right : Nat) : Candidate :=
  match candidate with
  | some (start, stop) => some (min start left, max stop right)
  | none => some (left, right)

def widenRows (candidates : List Candidate) (top bottom left right : Nat) : List Candidate :=
  candidates.mapIdx fun row candidate =>
    if top ≤ row ∧ row < bottom then widen candidate left right else candidate

/-- One region inside the grid. `none` is a region outside the rows. -/
def markRegion (candidates : List Candidate) (region : GridRect) : Option (List Candidate) :=
  let top := region.origin.row.toNat
  let left := region.origin.col.toNat
  if candidates.length < top + region.rows then none
  else some (widenRows candidates top (top + region.rows) left (left + region.cols))

def addRegion (geometry : TerminalGeometry) (candidates : List Candidate) (region : GridRect) :
    Option (List Candidate) :=
  (clipGridRect region geometry).elim (some candidates) (markRegion candidates)

def rowCandidates (damage : SceneDamage) (intended : PresentedScene) : Option (List Candidate) :=
  damage.diffRegions.foldlM (addRegion intended.geometry)
    (List.replicate intended.rows.length none)

/-! ## Runs -/

def rowRuns (presented intended : List Row) (row : Nat) : Candidate → Option (List (Nat × Nat))
  | none => some []
  | some (start, stop) => do
    let previousRow ← presented[row]?
    let intendedRow ← intended[row]?
    if previousRow.wrapped || intendedRow.wrapped then none
    else
      let stop := min (min stop previousRow.cells.length) intendedRow.cells.length
      let start := min start stop
      some (expandAndMergeCellRanges (changedCellRanges previousRow intendedRow start stop)
        previousRow intendedRow)

def incrementalRuns (damage : SceneDamage) (presented intended : PresentedScene) :
    Option (List (List (Nat × Nat))) := do
  let candidates ← rowCandidates damage intended
  candidates.zipIdx.mapM fun candidate => rowRuns presented.rows intended.rows candidate.2 candidate.1

def writeRuns (intended : List Row) (runs : List (List (Nat × Nat))) : Bytes :=
  (runs.zip intended).zipIdx.flatMap fun row =>
    row.1.1.flatMap fun run => writeIncrementalRun row.2 run.1 run.2 row.1.2

/-! ## The batch -/

variable (capabilities : RenderCapabilities)

def writeChanges (presented intended : PresentedScene) : Bytes :=
  (if capabilities.inlineTerminalEffects then writeEffectChanges presented intended else []) ++
    if presented.modes = intended.modes then []
    else writeModeChanges presented.modes intended.modes

def synchronized (intended : PresentedScene) (body : Bytes) : Bytes :=
  if capabilities.synchronizedOutput then
    ascii "\x1b[?2026h" ++ body ++ writePrivateMode 2026 intended.modes.synchronizedOutput
  else body

def incrementalBody (presented intended : PresentedScene)
    (runs : List (List (Nat × Nat))) : Bytes :=
  writeRuns intended.rows runs ++ writeChanges capabilities presented intended ++
    (if (runs.any fun row => !row.isEmpty) ∨ presented.cursor ≠ intended.cursor then
      writeCursor intended.cursor
    else []) ++
    List.replicate intended.bellCount 0x07

def incrementalBatch (damage : SceneDamage)
    (presented intended : PresentedScene) : Option (RenderBatch PresentedScene) := do
  let runs ← incrementalRuns damage presented intended
  let body := incrementalBody capabilities presented intended runs
  let bytes := if body.isEmpty then [] else synchronized capabilities intended body
  some ⟨if bytes.isEmpty then [] else [⟨bytes⟩], intended⟩

/-! ## What the runs leave -/

def overlayRow (presented intended : Row) (runs : List (Nat × Nat)) : Row :=
  { presented with
    cells := presented.cells.mapIdx fun col cell =>
      if Ranges.Covers runs col then cellOr intended.cells col else cell }

def overlayRows (presented intended : List Row) (runs : List (List (Nat × Nat))) : List Row :=
  ((presented.zip intended).zip runs).map fun row => overlayRow row.1.1 row.1.2 row.2

/-! ## Candidates of a damage -/

section Candidates

variable {geometry : TerminalGeometry} {candidates : List Candidate} {region : GridRect}

/-- The candidates of all rows of a grid, and of all cells that lie in one of the regions. -/
structure Compares (geometry : TerminalGeometry) (regions : List GridRect)
    (candidates : List Candidate) : Prop where
  length : candidates.length = geometry.rows.toNat
  cells : ∀ region ∈ regions, ∀ p, Inside geometry p → region.Contains p →
    ∃ start stop, candidates[p.1]? = some (some (start, stop)) ∧ start ≤ p.2 ∧ p.2 < stop

theorem widen_some (candidate : Candidate) (left right : Nat) :
    ∃ start stop, widen candidate left right = some (start, stop) ∧ start ≤ left ∧ right ≤ stop ∧
      ∀ start' stop', candidate = some (start', stop') → start ≤ start' ∧ stop' ≤ stop := by
  cases candidate with
  | none => exact ⟨left, right, rfl, le_rfl, le_rfl, fun _ _ h => by cases h⟩
  | some columns =>
    refine ⟨min columns.1 left, max columns.2 right, rfl, min_le_right _ _,
      le_max_right _ _, fun start' stop' h => ?_⟩
    cases h
    exact ⟨min_le_left _ _, le_max_left _ _⟩

theorem widenRows_getElem? (candidates : List Candidate) (top bottom left right row : Nat) :
    (widenRows candidates top bottom left right)[row]? = (candidates[row]?).map fun candidate =>
      if top ≤ row ∧ row < bottom then widen candidate left right else candidate := by
  rw [widenRows, getElem?_mapIdx]

theorem Compares.add {regions : List GridRect} (h : Compares geometry regions candidates)
    (region : GridRect) : ∃ candidates', addRegion geometry candidates region = some candidates' ∧
      Compares geometry (regions ++ [region]) candidates' := by
  rw [addRegion]
  cases hclip : clipGridRect region geometry with
  | none =>
    refine ⟨candidates, rfl, h.length, fun r hr p inside contains => ?_⟩
    rcases mem_append.mp hr with hr | hr
    · exact h.cells r hr p inside contains
    · rw [mem_singleton.mp hr] at contains
      obtain ⟨clipped, hsome, -⟩ := clipGridRect_contains inside contains
      rw [hclip] at hsome
      cases hsome
  | some clipped =>
    obtain ⟨⟨htop, hbottom⟩, -, -⟩ := clipGridRect_within hclip
    have hrows : ¬ candidates.length < clipped.origin.row.toNat + clipped.rows := by
      rw [h.length]
      omega
    refine ⟨_, if_neg hrows, ?_, fun r hr p inside contains => ?_⟩
    · rw [widenRows, length_mapIdx]
      exact h.length
    rw [widenRows_getElem?]
    rcases mem_append.mp hr with hr | hr
    · obtain ⟨start, stop, hcandidate, hstart, hstop⟩ := h.cells r hr p inside contains
      rw [hcandidate]
      split
      · obtain ⟨start', stop', hwiden, -, -, hgrows⟩ := widen_some (some (start, stop))
          clipped.origin.col.toNat (clipped.origin.col.toNat + clipped.cols)
        obtain ⟨hless, hmore⟩ := hgrows start stop rfl
        exact ⟨start', stop', congrArg some hwiden, hless.trans hstart, hstop.trans_le hmore⟩
      · exact ⟨start, stop, rfl, hstart, hstop⟩
    · rw [mem_singleton.mp hr] at contains
      obtain ⟨clipped', hclip', ⟨hin, hin'⟩, hcol, hcol'⟩ := clipGridRect_contains inside contains
      rw [hclip] at hclip'
      cases hclip'
      have hrow : p.1 < candidates.length := by
        rw [h.length]
        exact inside.1
      have hbetween : clipped.origin.row.toNat ≤ p.1 ∧ p.1 < clipped.origin.row.toNat + clipped.rows := by
        omega
      rw [getElem?_eq_getElem hrow, Option.map_some, if_pos hbetween]
      obtain ⟨start, stop, hwiden, hstart, hstop, -⟩ := widen_some candidates[p.1]
        clipped.origin.col.toNat (clipped.origin.col.toNat + clipped.cols)
      exact ⟨start, stop, congrArg some hwiden, by omega, by omega⟩

theorem Compares.foldlM {regions more : List GridRect} (h : Compares geometry regions candidates) :
    ∃ candidates', more.foldlM (addRegion geometry) candidates = some candidates' ∧
      Compares geometry (regions ++ more) candidates' := by
  induction more generalizing regions candidates with
  | nil => exact ⟨candidates, rfl, by rwa [append_nil]⟩
  | cons region rest ih =>
    obtain ⟨next, hnext, hcompares⟩ := h.add region
    obtain ⟨candidates', hrest, hall⟩ := ih hcompares
    rw [append_assoc] at hall
    refine ⟨candidates', ?_, hall⟩
    rw [foldlM_cons, hnext]
    exact hrest

/-- **Every row has its candidate**, and every cell of a region is compared. -/
theorem rowCandidates_spec (damage : SceneDamage) {intended : PresentedScene}
    (sized : Sized intended.geometry intended.rows) :
    ∃ candidates, rowCandidates damage intended = some candidates ∧
      Compares intended.geometry damage.diffRegions candidates := by
  have hstart : Compares intended.geometry [] (replicate intended.rows.length none) :=
    ⟨length_replicate.trans sized.1, forall_mem_nil _⟩
  exact hstart.foldlM

end Candidates

/-! ## Rows -/

theorem rowRuns_spec {presented intended : List Row} {row : Nat} {previousRow intendedRow : Row}
    (hpresented : presented[row]? = some previousRow) (hintended : intended[row]? = some intendedRow)
    (length : previousRow.cells.length = intendedRow.cells.length)
    (wellFormed : WellFormed previousRow ∧ WellFormed intendedRow)
    (unwrapped : previousRow.wrapped = false ∧ intendedRow.wrapped = false) (candidate : Candidate)
    (compares : ∀ col, col < intendedRow.cells.length →
      cellsPhysicallyMatch (cellOr previousRow.cells col) (cellOr intendedRow.cells col) = false →
      ∃ start stop, candidate = some (start, stop) ∧ start ≤ col ∧ col < stop) :
    ∃ runs, rowRuns presented intended row candidate = some runs ∧ Emitted previousRow intendedRow runs ∧
      shownRow (overlayRow previousRow intendedRow runs) = shownRow intendedRow := by
  have hoverlay : ∀ runs : List (Nat × Nat), (∀ col, col < intendedRow.cells.length →
      cellsPhysicallyMatch (cellOr previousRow.cells col) (cellOr intendedRow.cells col) = false →
      Ranges.Covers runs col) →
      shownRow (overlayRow previousRow intendedRow runs) = shownRow intendedRow := by
    intro runs hcovers
    have hcells : (overlayRow previousRow intendedRow runs).cells.map shownCell =
        intendedRow.cells.map shownCell := by
      refine ext_getElem ?_ fun col hcol hcol' => ?_
      · rw [length_map, length_map, overlayRow, length_mapIdx, length]
      · rw [length_map] at hcol'
        have hprevious := length ▸ hcol'
        rw [getElem_map, getElem_map]
        simp only [overlayRow, getElem_mapIdx]
        have hcell := cellOr_of_some (getElem?_eq_getElem hcol')
        have hcell' := cellOr_of_some (getElem?_eq_getElem hprevious)
        split
        · rw [hcell]
        · rename_i hout
          have hmatch : cellsPhysicallyMatch (cellOr previousRow.cells col)
              (cellOr intendedRow.cells col) = true := by
            by_contra hdiffer
            exact hout (hcovers col hcol' (eq_false_of_ne_true hdiffer))
          rw [hcell, hcell'] at hmatch
          exact (cellsPhysicallyMatch_iff _ _).mp hmatch
    rw [shownRow, hcells]
    exact congrArg (Row.mk _) (unwrapped.1.trans unwrapped.2.symm)
  cases candidate with
  | none =>
    refine ⟨[], rfl, emitted_nil _ _, hoverlay [] fun col hcol hdiffer => ?_⟩
    obtain ⟨_, _, hnone, -⟩ := compares col hcol hdiffer
    cases hnone
  | some columns =>
    obtain ⟨start, stop⟩ := columns
    have hcols : min (min stop previousRow.cells.length) intendedRow.cells.length =
        min stop intendedRow.cells.length := by omega
    have hrow : rowRuns presented intended row (some (start, stop)) =
        some (expandAndMergeCellRanges (changedCellRanges previousRow intendedRow
          (min start (min stop intendedRow.cells.length)) (min stop intendedRow.cells.length))
          previousRow intendedRow) := by
      rw [rowRuns, hpresented, hintended]
      show (if (previousRow.wrapped || intendedRow.wrapped) = true then none else some _) = some _
      rw [unwrapped.1, unwrapped.2, hcols]
      rfl
    obtain ⟨hemitted, hcovers⟩ := emitted_spec wellFormed.1 wellFormed.2 length
      (min_le_right start (min stop intendedRow.cells.length)) (min_le_right _ _)
    refine ⟨_, hrow, hemitted, hoverlay _ fun col hcol hdiffer => ?_⟩
    obtain ⟨_, _, hsome, hstart, hstop⟩ := compares col hcol hdiffer
    cases hsome
    exact hcovers col (by omega) (by omega) hdiffer

/-! ## Rows of a scene -/

/-- Scenes of one size whose rows are well formed and unwrapped. -/
structure Plain (geometry : TerminalGeometry) (rows : List Row) : Prop where
  sized : Sized geometry rows
  wellFormed : ∀ row ∈ rows, WellFormed row
  unwrapped : ∀ row ∈ rows, row.wrapped = false

theorem gridCell_eq {rows : List Row} {row col : Nat} {line : Row} (h : rows[row]? = some line) :
    gridCell rows (row, col) = cellOr line.cells col := by
  rw [gridCell, h, Option.bind_some, cellOr]

theorem runsOf_spec {geometry : TerminalGeometry} {presented intended : List Row}
    (hpresented : Plain geometry presented) (hintended : Plain geometry intended)
    {candidates : List Candidate} (length : candidates.length = geometry.rows.toNat)
    (compares : ∀ p, Inside geometry p → cellsPhysicallyMatch (gridCell presented p) (gridCell intended p) = false →
      ∃ start stop, candidates[p.1]? = some (some (start, stop)) ∧ start ≤ p.2 ∧ p.2 < stop) :
    ∃ runs, candidates.zipIdx.mapM (fun candidate =>
        rowRuns presented intended candidate.2 candidate.1) = some runs ∧
      runs.length = geometry.rows.toNat ∧
      ∀ (row : Nat) (previousRow intendedRow : Row), presented[row]? = some previousRow →
        intended[row]? = some intendedRow → ∃ rowRuns, runs[row]? = some rowRuns ∧
          Emitted previousRow intendedRow rowRuns ∧
          shownRow (overlayRow previousRow intendedRow rowRuns) = shownRow intendedRow := by
  have hrow : ∀ row previousRow intendedRow candidate, presented[row]? = some previousRow →
      intended[row]? = some intendedRow → candidates[row]? = some candidate →
      ∃ runs, rowRuns presented intended row candidate = some runs ∧ Emitted previousRow intendedRow runs ∧
        shownRow (overlayRow previousRow intendedRow runs) = shownRow intendedRow := by
    intro row previousRow intendedRow candidate hprevious hnext hcandidate
    have hmem := mem_of_getElem? hprevious
    have hmem' := mem_of_getElem? hnext
    have hwidth := hintended.sized.2 _ hmem'
    refine rowRuns_spec hprevious hnext ((hpresented.sized.2 _ hmem).trans hwidth.symm)
      ⟨hpresented.wellFormed _ hmem, hintended.wellFormed _ hmem'⟩
      ⟨hpresented.unwrapped _ hmem, hintended.unwrapped _ hmem'⟩ candidate
      fun col hcol hdiffer => ?_
    have hbelow : row < geometry.rows.toNat := by
      rw [← hintended.sized.1]
      exact (List.getElem?_eq_some_iff.mp hnext).1
    rw [← gridCell_eq hprevious, ← gridCell_eq hnext] at hdiffer
    obtain ⟨start, stop, hsome, hbounds⟩ := compares (row, col) ⟨hbelow, hwidth ▸ hcol⟩ hdiffer
    rw [hcandidate] at hsome
    exact ⟨start, stop, Option.some.inj hsome, hbounds⟩
  have hget : ∀ (rows : List Row) (row : Nat), rows.length = geometry.rows.toNat →
      row < geometry.rows.toNat → ∃ line, rows[row]? = some line := fun rows row hrows hlt =>
    ⟨_, getElem?_eq_getElem (hrows ▸ hlt)⟩
  have hall : ∀ candidate ∈ candidates.zipIdx, ∃ runs,
      rowRuns presented intended candidate.2 candidate.1 = some runs := by
    rintro ⟨candidate, row⟩ hmem
    have hcandidate := mem_zipIdx_iff_getElem?.mp hmem
    have hlt : row < geometry.rows.toNat := length ▸ (List.getElem?_eq_some_iff.mp hcandidate).1
    obtain ⟨previousRow, hprevious⟩ := hget presented row hpresented.sized.1 hlt
    obtain ⟨intendedRow, hnext⟩ := hget intended row hintended.sized.1 hlt
    obtain ⟨runs, hsome, -⟩ := hrow row previousRow intendedRow candidate hprevious hnext hcandidate
    exact ⟨runs, hsome⟩
  obtain ⟨runs, hruns, hlength, hitems⟩ := Fallible.mapM_some hall
  refine ⟨runs, hruns, ?_, fun row previousRow intendedRow hprevious hnext => ?_⟩
  · rw [hlength, length_zipIdx, length]
  · have hlt : row < candidates.length := by
      rw [length, ← hintended.sized.1]
      exact (List.getElem?_eq_some_iff.mp hnext).1
    have hcandidate := getElem?_eq_getElem hlt
    obtain ⟨runs', hruns', hspec⟩ := hrow row previousRow intendedRow _ hprevious hnext hcandidate
    obtain ⟨y, hy, hyruns⟩ := hitems row (candidates[row], row) (by
      rw [getElem?_zipIdx, hcandidate, Option.map_some, zero_add])
    rw [hruns'] at hy
    cases hy
    exact ⟨runs', hyruns, hspec⟩

/-- **The cell diff agrees with a full repaint** wherever its regions cover the cells that look different:
applying its runs to the one plain scene gives rows that look like those of the other. -/
theorem incremental_agrees (capabilities : RenderCapabilities) (damage : SceneDamage)
    (presented intended : PresentedScene) (hpresented : Plain intended.geometry presented.rows)
    (hintended : Plain intended.geometry intended.rows)
    (covers : ∀ p, Inside intended.geometry p →
      cellsPhysicallyMatch (gridCell presented.rows p) (gridCell intended.rows p) = false →
      ∃ region ∈ damage.diffRegions, region.Contains p) :
    ∃ runs, incrementalRuns damage presented intended = some runs ∧
      (incrementalBatch capabilities damage presented intended).isSome ∧
      runs.length = intended.rows.length ∧
      (∀ (row : Nat) (previousRow intendedRow : Row) (rowRuns : List (Nat × Nat)),
        presented.rows[row]? = some previousRow → intended.rows[row]? = some intendedRow →
        runs[row]? = some rowRuns → Emitted previousRow intendedRow rowRuns) ∧
      shownRows (overlayRows presented.rows intended.rows runs) = shownRows intended.rows := by
  obtain ⟨candidates, hcandidates, hcompares⟩ := rowCandidates_spec damage hintended.sized
  obtain ⟨runs, hruns, hlength, hrows⟩ := runsOf_spec hpresented hintended hcompares.length
    fun p inside hdiffer => by
      obtain ⟨region, hmem, contains⟩ := covers p inside hdiffer
      exact hcompares.cells region hmem p inside contains
  have hdiff : incrementalRuns damage presented intended = some runs := by
    rw [incrementalRuns, hcandidates]
    exact hruns
  refine ⟨runs, hdiff, ?_, hlength.trans hintended.sized.1.symm,
    fun row previousRow intendedRow rowRuns hprevious hnext hrow => ?_, ?_⟩
  · rw [incrementalBatch, hdiff]
    rfl
  · obtain ⟨rowRuns', hrow', hemitted, -⟩ := hrows row previousRow intendedRow hprevious hnext
    rw [hrow] at hrow'
    cases hrow'
    exact hemitted
  · rw [shownRows, shownRows, overlayRows, map_map]
    refine ext_getElem ?_ fun row hrow hrow' => ?_
    · rw [length_map, length_map, length_zip, length_zip, hlength,
        hpresented.sized.1, hintended.sized.1, min_self, min_self]
    · rw [length_map] at hrow'
      have hprevious : row < presented.rows.length := hpresented.sized.1.trans hintended.sized.1.symm ▸ hrow'
      obtain ⟨rowRuns, hrow, -, hshown⟩ := hrows row _ _ (getElem?_eq_getElem hprevious)
        (getElem?_eq_getElem hrow')
      obtain ⟨hbound, hruns⟩ := List.getElem?_eq_some_iff.mp hrow
      rw [getElem_map, getElem_map, getElem_zip, getElem_zip, hruns]
      exact hshown

/-! ### One line -/

def lineScene (cells : List Cell) : PresentedScene := .withRows ⟨1, 4, 0, 0⟩ [⟨cells, false⟩]

def lineDamage : SceneDamage := .regions [⟨⟨0, 0⟩, 1, 2⟩]

/-- A blank that is there as a space and should be there without a text is not written again. -/
theorem space_is_blank : incrementalRuns (.regions [⟨⟨0, 0⟩, 1, 4⟩]) (lineScene (replicate 4 (narrow " ")))
        (lineScene (replicate 4 (narrow ""))) = some [[]] ∧
      overlayRows (lineScene (replicate 4 (narrow " "))).rows
        (lineScene (replicate 4 (narrow ""))).rows [[]] ≠
        (lineScene (replicate 4 (narrow ""))).rows := by
  decide +kernel

theorem lineScene_plain {cells : List Cell} (length : cells.length = 4)
    (wellFormed : WellFormed ⟨cells, false⟩) : Plain (lineScene cells).geometry (lineScene cells).rows := by
  have hrow : ∀ row ∈ (lineScene cells).rows, row = ⟨cells, false⟩ := fun row hmem => mem_singleton.mp hmem
  refine ⟨⟨rfl, fun row hmem => ?_⟩, fun row hmem => ?_, fun row hmem => ?_⟩
  · rw [hrow row hmem]
    exact length
  · rw [hrow row hmem]
    exact wellFormed
  · rw [hrow row hmem]

/-- Two narrow cells take the place of a glyph. -/
theorem incremental_agrees_line : ∃ runs, incrementalRuns lineDamage (lineScene (wide "漢" ++ wide "字"))
        (lineScene (narrow "x" :: narrow "y" :: wide "字")) = some runs ∧
      shownRows (overlayRows (lineScene (wide "漢" ++ wide "字")).rows
        (lineScene (narrow "x" :: narrow "y" :: wide "字")).rows runs) =
        shownRows (lineScene (narrow "x" :: narrow "y" :: wide "字")).rows := by
  have hmixed : WellFormed ⟨narrow "x" :: narrow "y" :: wide "字", false⟩ := by
    rw [wellFormed_iff]
    refine ⟨rfl, fun n => ?_⟩
    match n with
    | 0 | 1 | 2 | 3 | n + 4 => rfl
  have hpair : WellFormed ⟨wide "漢" ++ wide "字", false⟩ := by
    rw [wellFormed_iff]
    refine ⟨rfl, fun n => ?_⟩
    match n with
    | 0 | 1 | 2 | 3 | n + 4 => rfl
  have hcols : ∀ p, Inside (lineScene []).geometry p → p.1 = 0 ∧ p.2 < 4 := fun p inside =>
    ⟨Nat.lt_one_iff.mp inside.1, inside.2⟩
  obtain ⟨runs, hruns, -, -, -, hshown⟩ := incremental_agrees ⟨true, true, true⟩
    lineDamage (lineScene (wide "漢" ++ wide "字"))
    (lineScene (narrow "x" :: narrow "y" :: wide "字")) (lineScene_plain rfl hpair)
    (lineScene_plain rfl hmixed) (by
      rintro ⟨row, col⟩ inside hdiffer
      obtain ⟨rfl, hcol⟩ := hcols (row, col) inside
      refine ⟨_, mem_singleton_self _, ⟨Int.le_refl 0, Int.zero_lt_one⟩, Int.natCast_nonneg col, ?_⟩
      match col, hcol with
      | 0, _ | 1, _ => decide
      | 2, _ | 3, _ => cases hdiffer)
  exact ⟨runs, hruns, hshown⟩

end Lector.Presentation
