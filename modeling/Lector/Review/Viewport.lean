import Lector.Review.Controller
import Lector.Review.Repeats

/-! What a review shows: after any keys, pastes and resizes its cursor is a position of the document and in the
viewport. -/
namespace Lector.Review
open Terminal
open List hiding max min

namespace ReviewDocument

variable {self : ReviewDocument}

/-! ## Columns -/

theorem used_le (cells : List Cell) : Row.used cells ≤ cells.length := by
  induction cells using reverseRecOn with
  | nil => exact le_rfl
  | append_singleton cells last ih =>
    rw [used_concat, length_append]
    split
    · exact le_rfl
    · omega

theorem stop_le_captureCols (row : Nat) : self.stop row ≤ self.captureCols := by
  rw [stop]
  cases hrow : self.rows[row]? with
  | none => exact Nat.zero_le _
  | some source =>
    have hcols := self.rows_cols source (mem_of_getElem? hrow)
    have hused := used_le source.cells
    rw [Option.elim_some, Row.stop]
    split <;> omega

theorem le_foldr_max {n : Nat} {items : List Nat} (h : n ∈ items) : n ≤ items.foldr max 0 := by
  induction items with
  | nil => cases h
  | cons item items ih =>
    obtain rfl | hmem := mem_cons.mp h
    · exact le_max_left _ _
    · exact (ih hmem).trans (le_max_right _ _)

theorem lineLastCol_lt_widest (row : Nat) : self.lineLastCol row < self.widest := by
  rw [lineLastCol, widest, stop]
  cases hrow : self.rows[row]? with
  | none =>
    rw [Option.elim_none]
    omega
  | some source =>
    have hle := le_foldr_max (mem_map_of_mem (f := Row.stop) (mem_of_getElem? hrow))
    rw [Option.elim_some]
    omega

/-- Rows and columns are counted in machine words: `usize` and `u16`. -/
structure Fits (document : ReviewDocument) : Prop where
  rows : document.rowCount < 2 ^ 64
  cols : document.captureCols < 2 ^ 16

end ReviewDocument

namespace ReviewView
open ReviewDocument

structure Shows (view : ReviewView) : Prop where
  top : view.viewportTop ≤ view.cursor.row
  bottom : view.cursor.row < view.viewportTop + max view.documentHeight 1
  left : view.viewportLeft ≤ view.cursor.col
  right : view.cursor.col < view.viewportLeft + max view.cols 1
  rows : view.viewportTop < view.document.rowCount
  cols : view.viewportLeft ≤ view.document.maxViewportLeft view.cols

/-- The rows of the viewport are rows of the document, as far as there are enough of them. -/
def Within (self : ReviewView) : Prop := self.viewportTop ≤ self.document.maxViewportTop self.documentHeight

variable {self : ReviewView}

theorem follow_shows {bits start span place limit : Nat} (hspan : 0 < span) (hplace : place + 1 < 2 ^ bits)
    (hlimit : place < limit + span) :
    let follow :=
      if place < start then place
      else if saturatingAdd bits start span ≤ place then saturatingAdd bits place 1 - span
      else start
    min follow limit ≤ place ∧ place < min follow limit + span := by
  intro follow
  have hfollow : follow ≤ place ∧ place < follow + span := by
    unfold follow saturatingAdd
    split
    · omega
    · split <;> omega
  omega

theorem follow_le {bits start span place last : Nat} (hplace : place < last) (hstart : start ≤ last - span) :
    (if place < start then place
      else if saturatingAdd bits start span ≤ place then saturatingAdd bits place 1 - span
      else start) ≤ last - span := by
  unfold saturatingAdd
  split
  · omega
  · split <;> omega

/-- **The cursor is made visible wherever it is in the document.** -/
theorem shows_render (fits : self.document.Fits) (h : self.document.Addressable self.cursor) :
    self.render.Shows := by
  have hrow := h.row
  have hcol := h.col
  have hrows := fits.rows
  have hcols := fits.cols
  have hwidest := @lineLastCol_lt_widest self.document self.cursor.row
  have hcopied := self.document.cols_pos
  have hlast : self.document.lineLastCol self.cursor.row < self.document.captureCols := by
    have hstop := @stop_le_captureCols self.document self.cursor.row
    rw [lineLastCol]
    omega
  obtain ⟨htop, hbottom⟩ := @follow_shows 64 self.viewportTop (max self.documentHeight 1) self.cursor.row
    (self.document.rowCount - 1) (by omega) (by omega) (by omega)
  obtain ⟨hleft, hright⟩ := @follow_shows 16 self.viewportLeft (max self.cols 1) self.cursor.col
    (self.document.maxViewportLeft (max self.cols 1)) (by omega) (by omega)
    (by rw [maxViewportLeft]; omega)
  refine ⟨htop, hbottom, hleft, hright, ?_, ?_⟩
  · show min _ (self.document.rowCount - 1) < self.document.rowCount
    omega
  · have hmost : self.document.maxViewportLeft (max self.cols 1) = self.document.maxViewportLeft self.cols := by
      rw [maxViewportLeft, maxViewportLeft, max_eq_left (le_max_right _ _)]
    show min _ (self.document.maxViewportLeft (max self.cols 1)) ≤ self.document.maxViewportLeft self.cols
    rw [hmost]
    exact min_le_right _ _

theorem within_render (h : self.document.Addressable self.cursor) (within : self.Within) : self.render.Within :=
  (min_le_left _ _).trans (follow_le h.row within)

/-! ## Commands -/

section Commands

variable {σ : Type} {library : TextLibrary} {sr : ScreenReader σ} {state : σ} {P : ReviewView → Prop}

/-- Kept by every command that does not place the viewport or ask for a search. -/
structure Closed (library : TextLibrary) (P : ReviewView → Prop) : Prop where
  visual : ∀ {self : ReviewView} (anchor : Option HistoryPosition) (kind : VisualKind), P self →
    P { self with visualAnchor := anchor, visualKind := kind }
  found : ∀ {self : ReviewView} {motion : Motion} {count : Nat} {target : HistoryPosition}
    {lastFind : Option LastFind}, P self → self.motionTarget library motion count = some (target, lastFind) →
    P { self with lastFind }
  moveTo : ∀ {self : ReviewView} (target : HistoryPosition), P self → P (self.moveTo target).2
  scrollPage : ∀ {self : ReviewView} (forward : Bool) (count : Nat), P self → P (self.scrollPage forward count).2

theorem speaks_rule {text : String} {action : ViewAction} {spoken : ReviewView} (h : P self) (h' : P spoken) :
    P (self.speaks sr state text action spoken).2.1 := by
  unfold speaks
  dsimp only
  split
  · exact h'
  · exact h

theorem yank_rule (closed : Closed library P) (h : P self) (register : Option ClipboardRegister)
    (text : Option String) : P (self.yank sr state register text).2.1 := by
  unfold yank
  split
  · exact h
  · dsimp only
    split
    · exact speaks_rule h h
    · exact speaks_rule h (closed.visual none self.visualKind h)

theorem handleCommand_rule (closed : Closed library P) (h : P self) (command : Command)
    (placed : ∀ placement line firstNonblank, command = .repositionViewport placement line firstNonblank →
      P (self.repositionViewport placement line firstNonblank).2)
    (asked : ∀ direction, command = .startSearch direction →
      P { self with searchPrompt := some ⟨"", direction⟩ }.render) :
    P (self.handleCommand library sr state command).2.1 := by
  cases command with
  | none | bell | exit => exact h
  | startVisual kind =>
    have hstarted := closed.visual (some self.cursor) kind h
    exact speaks_rule hstarted hstarted
  | cancelVisual =>
    have hcancelled := closed.visual none self.visualKind h
    exact speaks_rule hcancelled hcancelled
  | move motion count | moveVisual motion count =>
    simp only [handleCommand]
    split
    · exact h
    · next hfound => exact closed.moveTo _ (closed.found h hfound)
  | scrollPage forward count => exact closed.scrollPage forward count h
  | repositionViewport placement line firstNonblank => exact placed _ _ _ rfl
  | yankMotion motion count register =>
    simp only [handleCommand]
    split
    · exact h
    · next hfound => exact yank_rule closed (closed.found h hfound) _ _
  | yankLine count register => exact yank_rule closed h _ _
  | yankTextObject object count register => exact yank_rule closed h _ _
  | yankVisual register =>
    simp only [handleCommand]
    split
    · exact h
    · exact yank_rule closed (closed.visual none self.visualKind h) _ _
  | startSearch direction => exact asked direction rfl
  | repeatSearch reverse count =>
    simp only [handleCommand]
    split
    · exact h
    · split
      · exact h
      · exact closed.moveTo _ h

theorem handleKeys_rule (hkey : ∀ (view : ReviewView) (state : σ) (key : Key), P view →
      P (view.handleReviewKey library sr state key).2.1) (h : P self) (result : ViewAction) (keys : List Key) :
    P (self.handleKeys library sr state result keys).2.1 := by
  induction keys generalizing self state result with
  | nil => exact h
  | cons key keys ih =>
    have hnext := hkey self state key h
    rw [handleKeys]
    split <;> rename_i hanswer <;> rw [hanswer] at hnext
    · exact hnext
    · exact hnext
    · exact hnext
    · exact ih hnext _
    · exact ih hnext _

end Commands

/-! ## Runs -/

/-- A view of the document whose cursor and last find come from motions and moves, with the cursor shown. -/
structure Sound (library : TextLibrary) (document : ReviewDocument) (view : ReviewView) : Prop where
  copied : view.document = document
  reached : ReviewCursor.Reached library.isAlphanumeric document ⟨view.cursor, view.lastFind⟩
  shows : view.Shows

section Runs

variable {σ : Type} {library : TextLibrary} {sr : ScreenReader σ} {state : σ} {document : ReviewDocument}

theorem Sound.addressable (h : Sound library document self) : document.Addressable self.cursor :=
  ReviewCursor.addressable_cursor h.reached

theorem sound_render (fits : document.Fits) (h : self.document = document)
    (reached : ReviewCursor.Reached library.isAlphanumeric document ⟨self.cursor, self.lastFind⟩) :
    Sound library document self.render where
  copied := h
  reached
  shows := by
    subst h
    exact shows_render fits (ReviewCursor.addressable_cursor reached)

theorem sound_placed (fits : document.Fits) (h : Sound library document self) {placed : ReviewView}
    (hdocument : placed.document = self.document) (hfind : placed.lastFind = self.lastFind)
    (haddressable : document.Addressable placed.cursor) : Sound library document placed.render := by
  apply sound_render fits (hdocument.trans h.copied)
  rw [hfind]
  exact h.reached.other haddressable

section

variable (spaced : document.WellSpaced)
include spaced

theorem Sound.clamp (h : Sound library document self) (target : HistoryPosition) :
    document.Addressable (self.document.clamp target) := by
  rw [h.copied]
  exact addressable_clamp spaced (Nat.zero_lt_of_lt h.addressable.row) target

theorem sound_moveTo (fits : document.Fits) (h : Sound library document self)
    (target : HistoryPosition) : Sound library document (self.moveTo target).2 :=
  sound_placed fits h rfl rfl (h.clamp spaced target)

theorem sound_scrollPage (fits : document.Fits) (h : Sound library document self)
    (forward : Bool) (count : Nat) : Sound library document (self.scrollPage forward count).2 := by
  unfold scrollPage
  dsimp only
  generalize (if forward = true then min _ _ else self.viewportTop - _) = top
  split
  · exact h
  · refine sound_placed fits h rfl rfl ?_
    cases self.document.moveVertical self.cursor forward
        (min (max self.documentHeight 1 * count) (2 ^ 64 - 1)) with
    | none => exact h.addressable
    | some target => exact h.clamp spaced target

theorem sound_repositionViewport (fits : document.Fits)
    (h : Sound library document self) (placement : ViewportPlacement) (line : Option Nat) (firstNonblank : Bool) :
    Sound library document (self.repositionViewport placement line firstNonblank).2 := by
  have hline : document.Addressable (line.elim self.cursor fun line =>
      self.document.clamp { self.cursor with row := min (line - 1) (self.document.rowCount - 1) }) := by
    cases line with
    | none => exact h.addressable
    | some line => exact h.clamp spaced _
  refine sound_placed fits h rfl rfl ?_
  split
  · rw [h.copied] at hline ⊢
    exact addressable_lineFirstNonblank spaced hline.row
  · exact hline

end

theorem sound_onResize (fits : document.Fits) (h : Sound library document self) (rows cols : Nat) :
    Sound library document (self.onResize rows cols) :=
  sound_render fits h.copied h.reached

section

variable (spaced : document.WellSpaced) (fits : document.Fits)
include spaced fits

theorem closed_sound : Closed library (Sound library document) where
  visual _ _ h := ⟨h.copied, h.reached, ⟨h.shows.top, h.shows.bottom, h.shows.left, h.shows.right,
    h.shows.rows, h.shows.cols⟩⟩
  found h hfound := by
    refine ⟨h.copied, ?_, ⟨h.shows.top, h.shows.bottom, h.shows.left, h.shows.right, h.shows.rows,
      h.shows.cols⟩⟩
    rw [motionTarget, h.copied] at hfound
    exact h.reached.motion hfound
  moveTo target h := sound_moveTo spaced fits h target
  scrollPage forward count h := sound_scrollPage spaced fits h forward count

section

variable (h : Sound library document self)
include h

theorem sound_finishSearch (prompt : SearchPrompt) :
    Sound library document (self.finishSearch library prompt).2 := by
  unfold finishSearch
  dsimp only
  split
  · exact h
  · split
    · exact h
    · exact sound_placed fits h rfl rfl (h.clamp spaced _)

theorem sound_handleSearchKey (prompt : SearchPrompt) (key : Key) :
    Sound library document (self.handleSearchKey library prompt key).2 := by
  have hprompt : ∀ prompt, Sound library document { self with searchPrompt := prompt }.render :=
    fun prompt => sound_render fits h.copied h.reached
  unfold handleSearchKey
  split
  · exact hprompt none
  · split
    · exact h
    · exact hprompt _
  · split
    · exact h
    · exact hprompt _
  · exact sound_finishSearch spaced fits h prompt
  · split
    · exact h
    · exact hprompt _
  · exact h

theorem sound_handleReviewKey (key : Key) :
    Sound library document (self.handleReviewKey library sr state key).2.1 := by
  unfold handleReviewKey
  split
  · exact sound_handleSearchKey spaced fits h _ key
  · have hfed : Sound library document { self with parser := (self.parser.feed key).1 } :=
      ⟨h.copied, h.reached, ⟨h.shows.top, h.shows.bottom, h.shows.left, h.shows.right, h.shows.rows,
        h.shows.cols⟩⟩
    apply handleCommand_rule (closed_sound spaced fits) hfed
    · intro placement line firstNonblank _
      exact sound_repositionViewport spaced fits hfed placement line firstNonblank
    · intro direction _
      exact sound_render fits hfed.copied hfed.reached

end

theorem sound_step {reached : ReviewView × σ} (h : Sound library document reached.1) (event : ReviewEvent) :
    Sound library document (step library sr reached event).1 := by
  have hkeys : ∀ keys, Sound library document (reached.1.handleKeys library sr reached.2 .none keys).2.1 :=
    handleKeys_rule (P := Sound library document)
      (fun _ _ key hview => sound_handleReviewKey spaced fits hview key) h .none
  cases event with
  | input bytes => exact hkeys _
  | keyInput key => exact hkeys _
  | paste contents =>
    unfold step
    dsimp only
    split
    · exact h
    · exact hkeys _
  | placeApplicationCursor row col => exact sound_moveTo spaced fits h _
  | resize rows cols => exact sound_onResize fits h rows cols

theorem sound_run {start : ReviewView × σ} (h : Sound library document start.1) (events : List ReviewEvent) :
    Sound library document (run library sr start events).1 := by
  induction events generalizing start with
  | nil => exact h
  | cons event events ih => exact ih (sound_step spaced fits h event)

end

/-! ### Runs that keep to the rows of the document -/

def calm : Command → Bool
  | .repositionViewport .. | .startSearch _ => false
  | _ => true

/-- The commands of keys as far as they are handled: none for a key of the search prompt, and none behind a
bell, a pop or an error. -/
def commands (library : TextLibrary) (sr : ScreenReader σ) (self : ReviewView) (state : σ) :
    List Key → List Command
  | [] => []
  | key :: rest =>
    (if self.searchPrompt = none then [(self.parser.feed key).2] else []) ++
      match self.handleReviewKey library sr state key with
      | (some .redraw, self, state) | (some .none, self, state) => commands library sr self state rest
      | _ => []

/-- A paste is for the search prompt only. -/
def keysOf (self : ReviewView) : ReviewEvent → List Key
  | .paste contents => if self.searchPrompt = none then [] else textKeys contents
  | event => event.keys

def CalmRun (library : TextLibrary) (sr : ScreenReader σ) : ReviewView × σ → List ReviewEvent → Prop
  | _, [] => True
  | reached, event :: rest =>
    (∀ command ∈ reached.1.commands library sr reached.2 (reached.1.keysOf event), calm command = true) ∧
      CalmRun library sr (step library sr reached event) rest

/-- A view without a search prompt, with a viewport in the document. -/
structure Settled (library : TextLibrary) (document : ReviewDocument) (view : ReviewView) : Prop where
  sound : Sound library document view
  prompt : view.searchPrompt = none
  within : view.Within

theorem settled_render (h : Sound library document self.render)
    (prompt : self.searchPrompt = none) (within : self.Within) : Settled library document self.render where
  sound := h
  prompt := prompt
  within := within_render (h.copied ▸ h.addressable) within

theorem maxViewportTop_max (height : Nat) :
    document.maxViewportTop (max height 1) = document.maxViewportTop height := by
  rw [maxViewportTop, maxViewportTop, max_eq_left (le_max_right _ _)]

theorem settled_moveTo (spaced : document.WellSpaced) (fits : document.Fits) (h : Settled library document self)
    (target : HistoryPosition) : Settled library document (self.moveTo target).2 :=
  settled_render (sound_moveTo spaced fits h.sound target) h.prompt h.within

theorem settled_scrollPage (spaced : document.WellSpaced) (fits : document.Fits)
    (h : Settled library document self) (forward : Bool) (count : Nat) :
    Settled library document (self.scrollPage forward count).2 := by
  have hsound := sound_scrollPage spaced fits h.sound forward count
  have hwithin := h.within
  unfold scrollPage at hsound ⊢
  dsimp only at hsound ⊢
  have htop : (if forward = true then
      min (saturatingAdd 64 self.viewportTop (min (max self.documentHeight 1 * count) (2 ^ 64 - 1)))
        (self.document.maxViewportTop self.documentHeight)
      else self.viewportTop - min (max self.documentHeight 1 * count) (2 ^ 64 - 1)) ≤
        self.document.maxViewportTop self.documentHeight := by
    split
    · exact min_le_right _ _
    · exact (Nat.sub_le _ _).trans hwithin
  generalize (if forward = true then min _ _ else self.viewportTop - _) = top at hsound htop ⊢
  split at hsound
  · next hbell =>
    rw [if_pos hbell]
    exact h
  · next hmoves =>
    rw [if_neg hmoves]
    exact settled_render hsound h.prompt htop

theorem settled_onResize (fits : document.Fits) (h : Settled library document self) (rows cols : Nat) :
    Settled library document (self.onResize rows cols) := by
  have hsound := sound_onResize fits h.sound rows cols
  refine ⟨hsound, h.prompt, ?_⟩
  have hcursor := h.sound.copied ▸ h.sound.addressable
  refine within_render hcursor (within_render hcursor ?_)
  exact (min_le_right _ _).trans_eq (maxViewportTop_max _)

theorem closed_settled (spaced : document.WellSpaced) (fits : document.Fits) :
    Closed library (Settled library document) where
  visual anchor kind h := ⟨(closed_sound spaced fits).visual anchor kind h.sound, h.prompt, h.within⟩
  found h hfound := ⟨(closed_sound spaced fits).found h.sound hfound, h.prompt, h.within⟩
  moveTo target h := settled_moveTo spaced fits h target
  scrollPage forward count h := settled_scrollPage spaced fits h forward count

section

variable (spaced : document.WellSpaced) (fits : document.Fits)
include spaced fits

theorem settled_handleReviewKey
    (h : Settled library document self) {key : Key} (hcalm : calm (self.parser.feed key).2 = true) :
    Settled library document (self.handleReviewKey library sr state key).2.1 := by
  have hplaced : ∀ placement line firstNonblank,
      (self.parser.feed key).2 ≠ .repositionViewport placement line firstNonblank := by
    intro placement line firstNonblank heq
    rw [heq] at hcalm
    cases hcalm
  have hasked : ∀ direction, (self.parser.feed key).2 ≠ .startSearch direction := by
    intro direction heq
    rw [heq] at hcalm
    cases hcalm
  have hfed : Settled library document { self with parser := (self.parser.feed key).1 } :=
    ⟨⟨h.sound.copied, h.sound.reached, ⟨h.sound.shows.top, h.sound.shows.bottom, h.sound.shows.left,
      h.sound.shows.right, h.sound.shows.rows, h.sound.shows.cols⟩⟩, h.prompt, h.within⟩
  have hcommand : self.handleReviewKey library sr state key =
      { self with parser := (self.parser.feed key).1 }.handleCommand library sr state (self.parser.feed key).2 := by
    unfold handleReviewKey
    split
    · next prompt hprompt =>
      rw [h.prompt] at hprompt
      cases hprompt
    · rfl
  rw [hcommand]
  apply handleCommand_rule (closed_settled spaced fits) hfed
  · intro placement line firstNonblank heq
    exact absurd heq (hplaced _ _ _)
  · intro direction heq
    exact absurd heq (hasked _)

theorem settled_handleKeys (h : Settled library document self) {keys : List Key}
    (hcalm : ∀ command ∈ self.commands library sr state keys, calm command = true) (result : ViewAction) :
    Settled library document (self.handleKeys library sr state result keys).2.1 := by
  induction keys generalizing self state result with
  | nil => exact h
  | cons key keys ih =>
    rw [commands, if_pos h.prompt, singleton_append, forall_mem_cons] at hcalm
    obtain ⟨hkey, hrest⟩ := hcalm
    have hnext : Settled library document (self.handleReviewKey library sr state key).2.1 :=
      settled_handleReviewKey spaced fits h hkey
    rw [handleKeys]
    split <;> rename_i hanswer <;> rw [hanswer] at hnext hrest
    · exact hnext
    · exact hnext
    · exact hnext
    · exact ih hnext hrest _
    · exact ih hnext hrest _

theorem settled_run {start : ReviewView × σ}
    (h : Settled library document start.1) {events : List ReviewEvent} (hcalm : CalmRun library sr start events) :
    Settled library document (run library sr start events).1 := by
  induction events generalizing start with
  | nil => exact h
  | cons event events ih =>
    obtain ⟨hevent, hrest⟩ := hcalm
    refine ih ?_ hrest
    cases event with
    | input bytes => exact settled_handleKeys spaced fits h hevent .none
    | keyInput key => exact settled_handleKeys spaced fits h hevent .none
    | paste contents =>
      unfold step
      dsimp only
      rw [if_pos h.prompt]
      exact h
    | placeApplicationCursor row col => exact settled_moveTo spaced fits h _
    | resize rows cols => exact settled_onResize fits h rows cols

theorem settled_new (hrows : 0 < document.rowCount) (initial : HistoryPosition) (initialTop rows cols : Nat) :
    Settled library document (new document initial initialTop rows cols) := by
  have hcursor := addressable_clamp spaced hrows initial
  have hrender : ∀ {view : ReviewView}, view.document = document → view.cursor = document.clamp initial →
      view.lastFind = none → Sound library document view.render := by
    intro view hdocument hplace hfind
    apply sound_render fits hdocument
    rw [hplace, hfind]
    exact .start hcursor
  refine settled_render (hrender rfl rfl rfl) rfl (settled_render (hrender rfl rfl rfl) rfl ?_).within
  exact min_le_right _ _

theorem settled_newPageUp (hrows : 0 < document.rowCount) (initial : HistoryPosition)
    (initialTop rows cols : Nat) : Settled library document (newPageUp document initial initialTop rows cols) :=
  settled_scrollPage spaced fits (settled_new spaced fits hrows initial initialTop rows cols) false 1

end

end Runs

/-- **After any events the cursor is a position of the document and in the viewport, which begins in the
document.** Its last row is one of the document too, where there are as many, unless a key has placed it. -/
theorem run_shows_cursor {σ : Type} (library : TextLibrary) (sr : ScreenReader σ) (state : σ)
    {snapshot : TerminalSnapshot} (engine : ∀ row ∈ snapshot.scrollback ++ snapshot.rows, Spaced row)
    (screen : snapshot.rows ≠ []) (rows_fit : (snapshot.scrollback ++ snapshot.rows).length < 2 ^ 64)
    (marks : List SemanticMark) {captureCols : Nat} (cols_pos : 0 < captureCols) (cols_fit : captureCols < 2 ^ 16)
    (initial : HistoryPosition) (initialTop rows : Nat) (pageUp : Bool) (events : List ReviewEvent) :
    let document := fromSnapshot snapshot marks captureCols cols_pos
    let start :=
      if pageUp then newPageUp document initial initialTop rows captureCols
      else new document initial initialTop rows captureCols
    let reached := (run library sr (start, state) events).1
    document.Addressable reached.cursor ∧ (reached.viewportTop ≤ reached.cursor.row ∧
        reached.cursor.row < reached.viewportTop + max reached.documentHeight 1) ∧
      (reached.viewportLeft ≤ reached.cursor.col ∧
        reached.cursor.col < reached.viewportLeft + max reached.cols 1) ∧
      (reached.viewportTop < document.rowCount ∧
        reached.viewportLeft ≤ document.maxViewportLeft reached.cols) ∧
      (CalmRun library sr (start, state) events →
        reached.viewportTop ≤ document.maxViewportTop reached.documentHeight) := by
  intro document start reached
  have hspaced : document.WellSpaced := wellSpaced_fromSnapshot marks cols_pos engine
  have hcount : document.rowCount = (snapshot.scrollback ++ snapshot.rows).length := length_map _
  have hrows : 0 < document.rowCount := by
    rw [hcount, length_append]
    have hlen := length_pos_iff.mpr screen
    omega
  have hfits : document.Fits := ⟨hcount ▸ rows_fit, cols_fit⟩
  have hstart : Settled library document start := by
    unfold start
    split
    · exact settled_newPageUp hspaced hfits hrows initial initialTop rows captureCols
    · exact settled_new hspaced hfits hrows initial initialTop rows captureCols
  have hsound : Sound library document reached := sound_run hspaced hfits hstart.sound events
  have hcopied := hsound.copied
  refine ⟨hsound.addressable, ⟨hsound.shows.top, hsound.shows.bottom⟩, ⟨hsound.shows.left, hsound.shows.right⟩,
    ⟨hcopied ▸ hsound.shows.rows, hcopied ▸ hsound.shows.cols⟩, fun hcalm => ?_⟩
  have hsettled := settled_run hspaced hfits hstart hcalm
  exact hcopied ▸ hsettled.within

/-! ### A line placed at the top -/

def willing : ScreenReader Unit where
  speak _ _ := (true, ())
  writeClipboard _ _ _ := (none, ())
  clipboardDefaultRegister _ := .internal

def plainText : TextLibrary := ⟨Char.isAlphanum, fun _ => none, fun _ => none⟩

def twoLines : TerminalSnapshot := screenOf [printedRow "a" false, printedRow "b" false]

/-- `zt` on the second of two lines: the viewport of two rows goes on behind the document. -/
theorem viewport_behind_document :
    let document := fromSnapshot twoLines [] 1 (by decide)
    let reached := (run plainText willing (new document ⟨1, 0⟩ 0 2 1, ()) [.input [0x7A, 0x74]]).1
    reached.documentHeight ≤ document.rowCount ∧
      document.rowCount < reached.viewportTop + reached.documentHeight := by
  decide

/-- The second `j` rings the bell, so the `zt` behind it is not handled, and there is no prompt to paste to. -/
theorem run_shows_cursor_twoLines :
    let document := fromSnapshot twoLines [] 1 (by decide)
    let events := [.input [0x6A, 0x6A, 0x7A, 0x74], .paste "/usr", .resize 1 1]
    let reached := (run plainText willing (newPageUp document ⟨1, 0⟩ 0 2 1, ()) events).1
    reached.viewportTop ≤ document.maxViewportTop reached.documentHeight :=
  (run_shows_cursor plainText willing ()
    (by simpa [twoLines, screenOf] using
      ⟨ReviewCursor.spaced_printedRow "a" false, ReviewCursor.spaced_printedRow "b" false⟩)
    (by decide) (by decide) [] (by decide) (by decide) ⟨1, 0⟩ 0 2 true
    [.input [0x6A, 0x6A, 0x7A, 0x74], .paste "/usr", .resize 1 1]).2.2.2.2
    ⟨by decide, by decide, by decide, trivial⟩

end ReviewView
end Lector.Review
