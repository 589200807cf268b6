/-
  The log viewer of the browser (`30-log-viewer.js`): the stored lines, the rows
  that show them and the number of matches.

  The three are changed side by side, each operation trimming them in its own
  way.  `addLine` removes rows before it appends one, and one too few;
  `addLines` appends all rows of a batch, also of one that is longer than the
  buffer; and no trim, nor `clear`, takes a matching line off the number of
  matches (`not_consistent`).  The viewer stays consistent exactly in the runs
  in which no single line is added to a full buffer, no batch is longer than the
  buffer or pushes a matching line out, and no matching line is cleared
  (`consistent_iff`).

  The regular expressions of the browser are any function that takes a pattern
  and flags to a test of texts, or refuses them.  The elements of the viewer are
  on the page.
-/
import UnisetPanel.Machine
import UnisetPanel.Timer
import Mathlib.Data.Int.Notation
import Mathlib.Data.List.Forall2
import Mathlib.Data.List.Infix

namespace UnisetPanel

/-- A stored line. -/
structure LogLine where
  text : String
  type : String
  timestamp : Time
  deriving DecidableEq, Repr

/-- A row on the page. -/
structure LogRow where
  /-- `data-index` -/
  index : ℤ
  text : String
  /-- the class of the level, if it has one -/
  level : String
  /-- the class of an error -/
  crit : Bool
  hasMatch : Bool
  hidden : Bool
  deriving DecidableEq, Repr

/-- The fields of the viewer that say what matches. -/
structure LogFilter where
  filter : String
  filterRegex : Bool
  filterCase : Bool
  filterOnlyMatches : Bool
  deriving DecidableEq, Repr

/-- `new RegExp(pattern, flags)`: its `test`, or none if it throws. -/
abbrev RegExpEngine := String → String → Option (String → Bool)

namespace LogFilter

/-- The filter of a new viewer. -/
def new : LogFilter := ⟨"", true, false, false⟩

/-- The characters that have a meaning in a regular expression, each after a backslash. -/
def escape (s : String) : String :=
  String.ofList (s.toList.flatMap fun c =>
    if c ∈ ".*+?^$\x7b\x7d()|[]\\".toList then ['\\', c] else [c])

/-- `matches` of `highlightText`. -/
def isMatch (f : LogFilter) (regExp : RegExpEngine) (text : String) : Bool :=
  if f.filter = "" then false
  else
    let pattern := if f.filterRegex then f.filter else escape f.filter
    match regExp ("(" ++ pattern ++ ")") (if f.filterCase then "g" else "gi") with
    | some test => test text
    | none => false

end LogFilter

/-- `detectLogLevel`. -/
def detectLogLevel (text : String) : String :=
  let includes (word : String) : Bool := word.toList <:+: text.toLower.toList
  if includes "crit" || includes "fatal" || includes "error" then "log-level-crit"
  else if includes "warn" then "log-level-warn"
  else if includes "info" then "log-level-info"
  else if includes "debug" || includes "level" then "log-level-debug"
  else ""

/-- A buffer size; the page offers only positive ones. -/
abbrev BufferSize := { n : ℕ // 0 < n }

/-- `LogViewer`. -/
structure LogViewer where
  lines : List LogLine
  maxLines : BufferSize
  filter : LogFilter
  matchCount : ℕ
  paused : Bool
  pausedBuffer : List LogLine
  /-- the rows on the page -/
  rows : List LogRow
  /-- the buffer size was changed after the last line was added -/
  resized : Bool

namespace LogViewer

variable (v : LogViewer) (regExp : RegExpEngine)

/-- `constructor`. -/
def new (maxLines : BufferSize) : LogViewer where
  lines := []
  maxLines := maxLines
  filter := .new
  matchCount := 0
  paused := false
  pausedBuffer := []
  rows := []
  resized := false

/-- `lines.slice(-maxLines)`. -/
def slice (lines : List LogLine) : List LogLine := lines.drop (lines.length - v.maxLines)

/-- The row that `renderLine` makes of a line. -/
def row (line : LogLine) (index : ℤ) : LogRow where
  index := index
  text := line.text
  level := detectLogLevel line.text
  crit := line.type = "error"
  hasMatch := v.filter.isMatch regExp line.text
  hidden := !v.filter.isMatch regExp line.text && v.filter.filterOnlyMatches && v.filter.filter ≠ ""

/-- `renderLine`, and whether the line matches. -/
def renderLine (line : LogLine) (index : ℤ) : LogViewer × Bool :=
  ({ v with rows := v.rows ++ [v.row regExp line index] }, v.filter.isMatch regExp line.text)

/-- `addLine`. -/
def addLine (text type : String) (now : Time) : LogViewer :=
  let line : LogLine := ⟨text, type, now⟩
  if v.paused then { v with pausedBuffer := v.pausedBuffer ++ [line] }
  else
    let lines := v.lines ++ [line]
    let trimmed :=
      if v.maxLines < lines.length then
        { v with
          lines := v.slice lines
          -- the row of the new line is not there yet
          rows := if v.maxLines < v.rows.length then v.rows.drop (v.rows.length - v.maxLines)
            else v.rows }
      else { v with lines := lines }
    let (rendered, isMatch) := trimmed.renderLine regExp line (trimmed.lines.length - 1 : ℤ)
    { rendered with
      matchCount := if isMatch then rendered.matchCount + 1 else rendered.matchCount
      resized := false }

/-- `addLines`. -/
def addLines (texts : List String) (now : Time) : LogViewer :=
  if texts.length = 0 then v
  else
    let newLines := texts.map fun text => (⟨text, "", now⟩ : LogLine)
    if v.paused then { v with pausedBuffer := v.pausedBuffer ++ newLines }
    else
      let lines := v.lines ++ newLines
      let trimmed :=
        if v.maxLines < lines.length then
          let excess := lines.length - v.maxLines
          { v with lines := v.slice lines, rows := v.rows.drop (min excess v.rows.length) }
        else { v with lines := lines }
      { trimmed with
        rows := trimmed.rows ++ newLines.mapIdx fun i line =>
          trimmed.row regExp line (trimmed.lines.length - newLines.length + i : ℤ)
        matchCount := trimmed.matchCount +
          newLines.countP fun line => v.filter.isMatch regExp line.text
        resized := false }

/-- `applyFilter`. -/
def applyFilter : LogViewer :=
  v.lines.zipIdx.foldl (fun v (line, index) =>
    let (rendered, isMatch) := v.renderLine regExp line index
    { rendered with
      matchCount := if isMatch then rendered.matchCount + 1 else rendered.matchCount })
    { v with rows := [], matchCount := 0 }

/-- `flushPausedBuffer`. -/
def flushPausedBuffer : LogViewer :=
  if v.pausedBuffer.length = 0 then v
  else
    let lines := v.lines ++ v.pausedBuffer
    applyFilter { v with
      lines := if v.maxLines < lines.length then v.slice lines else lines
      pausedBuffer := []
      resized := false } regExp

/-- `togglePause`. -/
def togglePause : LogViewer :=
  let v := { v with paused := !v.paused }
  if v.paused then v else v.flushPausedBuffer regExp

/-- `clear`. -/
def clear : LogViewer := { v with lines := [], rows := [] }

end LogViewer

/-- What happens to a viewer. -/
inductive LogViewerAction where
  | addLine (text type : String) (now : Time)
  | addLines (texts : List String) (now : Time)
  | togglePause
  /-- the filter or one of its options is set, and applied -/
  | setFilter (filter : LogFilter)
  | clear
  | setBufferSize (maxLines : BufferSize)

/-- One step. -/
def LogViewer.step (v : LogViewer) (regExp : RegExpEngine) : LogViewerAction → LogViewer
  | .addLine text type now => v.addLine regExp text type now
  | .addLines texts now => v.addLines regExp texts now
  | .togglePause => v.togglePause regExp
  | .setFilter filter => applyFilter { v with filter := filter } regExp
  | .clear => v.clear
  | .setBufferSize maxLines => { v with maxLines := maxLines, resized := true }

/-- The runs of a viewer. -/
def logViewerMachine (regExp : RegExpEngine) (maxLines : BufferSize) :
    Machine LogViewer LogViewerAction where
  init := .new maxLines
  step v a := some (v.step regExp a)

namespace LogViewer

/-! ### What is wanted -/

variable (v : LogViewer) (regExp : RegExpEngine)

/-- The row shows the line; its index is that of when it was made. -/
def Shows (line : LogLine) (row : LogRow) : Prop := ∃ index, row = v.row regExp line index

/-- How many of the lines match the filter. -/
def countMatches (lines : List LogLine) : ℕ :=
  lines.countP fun line => v.filter.isMatch regExp line.text

/-- **The rows are those of the lines**, as many as the buffer holds since a line was added last,
and the number of matches is that of the lines. -/
structure Consistent : Prop where
  rows : List.Forall₂ (v.Shows regExp) v.lines v.rows
  length_le : v.resized = false → v.rows.length ≤ v.maxLines
  matchCount : v.matchCount = v.countMatches regExp v.lines

/-- No single line is added to a full buffer, no batch is longer than the buffer or pushes a
matching line out, and no matching line is cleared. -/
def Fits : LogViewerAction → Prop
  | .addLine _ _ _ => v.paused = false → v.lines.length < v.maxLines
  | .addLines texts _ => v.paused = false → texts ≠ [] → texts.length ≤ v.maxLines ∧
      v.countMatches regExp (v.lines.take (v.lines.length + texts.length - v.maxLines)) = 0
  | .clear => v.countMatches regExp v.lines = 0
  | .togglePause | .setFilter _ | .setBufferSize _ => True

/-! ### A full buffer -/

/-- Regular expressions without a special character: the text contains the pattern. -/
def plainRegExp : RegExpEngine := fun pattern _ => some fun text =>
  (pattern.toList.drop 1).dropLast <:+: text.toList

/-- A viewer after some steps. -/
def viewerAfter (maxLines : BufferSize) (as : List LogViewerAction) : LogViewer :=
  as.foldl (fun v a => v.step plainRegExp a) (.new maxLines)

/-- Two lines of a buffer for one. -/
def twoLines : List LogViewerAction := [.addLine "a" "" 0, .addLine "b" "" 1]

/-- A line that matches. -/
def oneMatch : List LogViewerAction :=
  [.setFilter { LogFilter.new with filter := "a" }, .addLine "a" "" 0]

/-- **It fails**: after `twoLines` there are two rows for one line; a batch of two leaves two rows
in a buffer for one; and neither a batch that pushes the matching line out nor `clear` takes it off
the number of matches. -/
theorem not_consistent :
    (¬ ∀ maxLines as, List.Forall₂ ((viewerAfter maxLines as).Shows plainRegExp)
      (viewerAfter maxLines as).lines (viewerAfter maxLines as).rows) ∧
    (¬ ∀ maxLines as, (viewerAfter maxLines as).resized = false →
      (viewerAfter maxLines as).rows.length ≤ maxLines) ∧
    ¬ ∀ maxLines as, (viewerAfter maxLines as).matchCount =
      (viewerAfter maxLines as).countMatches plainRegExp (viewerAfter maxLines as).lines := by
  refine ⟨?_, ?_, ?_⟩
  · intro h
    exact absurd (h ⟨1, by decide⟩ twoLines).length_eq (by decide)
  · intro h
    exact absurd (h ⟨1, by decide⟩ [.addLines ["a", "b"] 0] rfl) (by decide)
  · intro h
    exact absurd (h ⟨1, by decide⟩ (oneMatch ++ [.clear])) (by decide)

/-! ### What the operations do -/

variable {v : LogViewer} {regExp : RegExpEngine}

theorem length_slice (lines : List LogLine) (h : v.maxLines ≤ lines.length) :
    (v.slice lines).length = v.maxLines := by
  simp only [slice, List.length_drop]
  omega

theorem length_slice_le (lines : List LogLine) : (v.slice lines).length ≤ v.maxLines := by
  simp only [slice, List.length_drop]
  omega

theorem countMatches_append (xs ys : List LogLine) :
    v.countMatches regExp (xs ++ ys) = v.countMatches regExp xs + v.countMatches regExp ys :=
  List.countP_append

/-- A batch that is not longer than the buffer pushes out the oldest lines only. -/
theorem slice_append (lines batch : List LogLine) (h : batch.length ≤ v.maxLines) :
    v.slice (lines ++ batch) =
      lines.drop (lines.length + batch.length - v.maxLines) ++ batch := by
  unfold slice
  rw [List.length_append]
  exact List.drop_append_of_le_length (by omega)

variable (v regExp) in
theorem countMatches_take_add_drop (n : ℕ) (lines : List LogLine) :
    v.countMatches regExp (lines.take n) + v.countMatches regExp (lines.drop n) =
      v.countMatches regExp lines := by
  rw [← countMatches_append, List.take_append_drop]

/-- The rows that are made of new lines. -/
theorem forall₂_shows_mapIdx (lines : List LogLine) (f : ℕ → ℤ) :
    List.Forall₂ (v.Shows regExp) lines (lines.mapIdx fun i line => v.row regExp line (f i)) := by
  refine List.forall₂_iff_get.mpr ⟨by simp, ?_⟩
  intro i hi hi'
  exact ⟨f i, by simp⟩

/-- The rows and matches that the lines of a re-rendering add, from any point of it. -/
theorem foldl_renderLine (lines : List (LogLine × ℕ)) :
    lines.foldl (fun v (line, index) =>
      let (rendered, isMatch) := v.renderLine regExp line index
      { rendered with
        matchCount := if isMatch then rendered.matchCount + 1 else rendered.matchCount }) v =
    { v with
      rows := v.rows ++ lines.map fun (line, index) => v.row regExp line index
      matchCount := v.matchCount + v.countMatches regExp (lines.map Prod.fst) } := by
  induction lines generalizing v with
  | nil => simp [countMatches]
  | cons entry lines ih =>
    obtain ⟨line, index⟩ := entry
    rw [List.foldl_cons, ih]
    by_cases h : v.filter.isMatch regExp line.text = true
    · simp [renderLine, row, countMatches, h, Nat.add_assoc, Nat.add_comm]
    · simp [renderLine, row, countMatches, h]

theorem applyFilter_eq : v.applyFilter regExp =
    { v with
      rows := v.lines.zipIdx.map fun (line, index) => v.row regExp line index
      matchCount := v.countMatches regExp v.lines } := by
  have hlines : v.lines.zipIdx.map Prod.fst = v.lines := List.zipIdx_map_fst 0 v.lines
  rw [applyFilter, foldl_renderLine, hlines]
  simp [countMatches, row]

/-- **`applyFilter`** makes the rows anew and counts the matches. -/
theorem consistent_applyFilter (hlength : v.resized = false → v.lines.length ≤ v.maxLines) :
    (v.applyFilter regExp).Consistent regExp := by
  rw [applyFilter_eq]
  refine ⟨?_, ?_, rfl⟩
  · refine List.forall₂_iff_get.mpr ⟨by simp, ?_⟩
    intro i hi hi'
    exact ⟨i, by simp [row]⟩
  · simpa using hlength

/-! ### One line -/

theorem addLine_of_paused (text type : String) (now : Time) (h : v.paused = true) :
    v.addLine regExp text type now =
      { v with pausedBuffer := v.pausedBuffer ++ [⟨text, type, now⟩] } := by
  simp [addLine, h]

variable (regExp) in
/-- In a buffer that is not full nothing is trimmed. -/
theorem addLine_of_lt (text type : String) (now : Time) (h : v.paused = false)
    (hlt : v.lines.length < v.maxLines) :
    ∃ index, v.addLine regExp text type now =
      { v with
        lines := v.lines ++ [⟨text, type, now⟩]
        rows := v.rows ++ [v.row regExp ⟨text, type, now⟩ index]
        matchCount := v.matchCount + v.countMatches regExp [⟨text, type, now⟩]
        resized := false } := by
  have hfit : ¬ (v.maxLines : ℕ) < v.lines.length + 1 := by omega
  refine ⟨(v.lines.length : ℤ), ?_⟩
  by_cases hm : v.filter.isMatch regExp text = true
  · simp [addLine, h, hfit, renderLine, row, countMatches, hm]
  · simp [addLine, h, hfit, renderLine, row, countMatches, hm]

theorem consistent_addLine (text type : String) (now : Time) (hv : v.Consistent regExp)
    (hfits : v.Fits regExp (.addLine text type now)) :
    (v.addLine regExp text type now).Consistent regExp := by
  by_cases hpaused : v.paused = true
  · rw [addLine_of_paused text type now hpaused]
    exact ⟨hv.rows, hv.length_le, hv.matchCount⟩
  · have hpaused' : v.paused = false := by simpa using hpaused
    have hlt : v.lines.length < v.maxLines := hfits hpaused'
    have hlength := hv.rows.length_eq
    obtain ⟨index, h⟩ := addLine_of_lt regExp text type now hpaused' hlt
    rw [h]
    refine ⟨?_, ?_, ?_⟩
    · exact List.rel_append hv.rows (.cons ⟨index, rfl⟩ .nil)
    · intro _
      simp only [List.length_append, List.length_singleton]
      omega
    · have hcount := hv.matchCount
      simp only [countMatches, List.countP_append] at hcount ⊢
      omega

variable (regExp) in
/-- **A full buffer** gets one row too many: the rows are trimmed before the new one is there. -/
theorem length_addLine_of_full (text type : String) (now : Time) (h : v.paused = false)
    (hfull : v.maxLines ≤ v.lines.length) (hlength : v.lines.length = v.rows.length) :
    (v.addLine regExp text type now).lines.length = v.maxLines ∧
      (v.addLine regExp text type now).rows.length = v.maxLines + 1 := by
  have htrim : (v.maxLines : ℕ) < v.lines.length + 1 := by omega
  have hslice : (v.slice (v.lines ++ [⟨text, type, now⟩])).length = v.maxLines :=
    length_slice _ (by simp only [List.length_append, List.length_singleton]; omega)
  by_cases hrows : (v.maxLines : ℕ) < v.rows.length
  · refine ⟨?_, ?_⟩
    · simpa [addLine, h, htrim, renderLine] using hslice
    · simp only [addLine, h, renderLine, List.length_append, List.length_singleton, htrim,
        if_true, hrows, List.length_drop, Bool.false_eq_true, if_false]
      omega
  · refine ⟨?_, ?_⟩
    · simpa [addLine, h, htrim, renderLine] using hslice
    · simp only [addLine, h, renderLine, List.length_append, List.length_singleton, htrim,
        if_true, hrows, Bool.false_eq_true, if_false]
      omega

/-! ### A batch -/

theorem addLines_of_paused (texts : List String) (now : Time) (h : v.paused = true) :
    v.addLines regExp texts now =
      { v with pausedBuffer := v.pausedBuffer ++ texts.map fun text => ⟨text, "", now⟩ } := by
  by_cases htexts : texts = []
  · simp [addLines, htexts]
  · simp [addLines, h, htexts]

variable (regExp) in
/-- As many rows go as there are lines too many, and all lines of the batch get one. -/
theorem addLines_of_ne_nil (texts : List String) (now : Time) (h : v.paused = false)
    (htexts : texts ≠ []) (hlength : v.lines.length = v.rows.length) :
    ∃ f : ℕ → ℤ, v.addLines regExp texts now =
      { v with
        lines := v.slice (v.lines ++ texts.map fun text => ⟨text, "", now⟩)
        rows := v.rows.drop (v.lines.length + texts.length - v.maxLines) ++
          (texts.map fun text => (⟨text, "", now⟩ : LogLine)).mapIdx fun i line =>
            v.row regExp line (f i)
        matchCount := v.matchCount +
          v.countMatches regExp (texts.map fun text => ⟨text, "", now⟩)
        resized := false } := by
  by_cases htrim : (v.maxLines : ℕ) < v.lines.length + texts.length
  · -- dropping more rows than there are drops all of them
    have hdrop : v.rows.drop (min (v.lines.length + texts.length - v.maxLines) v.rows.length) =
        v.rows.drop (v.lines.length + texts.length - v.maxLines) := by
      rcases Nat.le_total (v.lines.length + texts.length - v.maxLines) v.rows.length with hle | hle
      · rw [Nat.min_eq_left hle]
      · rw [Nat.min_eq_right hle, List.drop_length, List.drop_eq_nil_of_le hle]
    refine ⟨fun i => ((v.slice (v.lines ++ texts.map fun text => ⟨text, "", now⟩)).length -
      texts.length + i : ℤ), ?_⟩
    simp [addLines, h, htexts, htrim, hdrop, countMatches, row]
  · have hall : v.slice (v.lines ++ texts.map fun text => ⟨text, "", now⟩) =
        v.lines ++ texts.map fun text => ⟨text, "", now⟩ := by
      simp only [slice, List.length_append, List.length_map]
      rw [Nat.sub_eq_zero_of_le (Nat.not_lt.mp htrim), List.drop_zero]
    have hzero : v.lines.length + texts.length - v.maxLines = 0 := by omega
    refine ⟨fun i => ((v.lines ++ texts.map fun text => (⟨text, "", now⟩ : LogLine)).length -
      texts.length + i : ℤ), ?_⟩
    rw [hall, hzero]
    simp [addLines, h, htexts, htrim, countMatches, row]

theorem consistent_addLines (texts : List String) (now : Time) (hv : v.Consistent regExp)
    (hfits : v.Fits regExp (.addLines texts now)) :
    (v.addLines regExp texts now).Consistent regExp := by
  by_cases hpaused : v.paused = true
  · rw [addLines_of_paused texts now hpaused]
    exact ⟨hv.rows, hv.length_le, hv.matchCount⟩
  · have hpaused' : v.paused = false := by simpa using hpaused
    by_cases htexts : texts = []
    · simpa [addLines, htexts] using hv
    · obtain ⟨hbatch, hout⟩ := hfits hpaused' htexts
      have hlength := hv.rows.length_eq
      obtain ⟨f, h⟩ := addLines_of_ne_nil regExp texts now hpaused' htexts hlength
      -- the lines that stay, and the batch
      have hlines := slice_append v.lines (texts.map fun text => (⟨text, "", now⟩ : LogLine))
        (by simpa using hbatch)
      rw [List.length_map] at hlines
      rw [h]
      refine ⟨?_, ?_, ?_⟩
      · simp only [hlines]
        exact List.rel_append (List.forall₂_drop _ hv.rows) (forall₂_shows_mapIdx _ f)
      · intro _
        simp only [List.length_append, List.length_drop, List.length_mapIdx, List.length_map]
        omega
      · have hcount := hv.matchCount
        have hsplit := countMatches_take_add_drop v regExp
          (v.lines.length + texts.length - v.maxLines) v.lines
        simp only [hlines, countMatches, List.countP_append] at hcount hout hsplit ⊢
        omega

/-- **A batch that does not fit** leaves too many rows, or a match that is gone. -/
theorem not_consistent_addLines (texts : List String) (now : Time) (hv : v.Consistent regExp)
    (hfits : ¬ v.Fits regExp (.addLines texts now)) :
    ¬ (v.addLines regExp texts now).Consistent regExp := by
  simp only [Fits, Classical.not_imp] at hfits
  obtain ⟨hpaused, htexts, hout⟩ := hfits
  have hlength := hv.rows.length_eq
  obtain ⟨f, h⟩ := addLines_of_ne_nil regExp texts now hpaused htexts hlength
  rw [h]
  intro hw
  by_cases hbatch : texts.length ≤ v.maxLines
  · -- the lines pushed out are still counted
    have hlines := slice_append v.lines (texts.map fun text => (⟨text, "", now⟩ : LogLine))
      (by simpa using hbatch)
    rw [List.length_map] at hlines
    have hcount := hv.matchCount
    have hcount' := hw.matchCount
    have hsplit := countMatches_take_add_drop v regExp
      (v.lines.length + texts.length - v.maxLines) v.lines
    simp only [hlines, countMatches, List.countP_append] at hcount hcount' hsplit
    simp only [hbatch, true_and, countMatches] at hout
    omega
  · have hle := hw.length_le rfl
    simp only [List.length_append, List.length_drop, List.length_mapIdx, List.length_map] at hle
    omega

/-! ### The runs -/

theorem consistent_togglePause (hv : v.Consistent regExp) :
    (v.togglePause regExp).Consistent regExp := by
  have hlength := hv.rows.length_eq
  by_cases hpaused : v.paused = true
  · by_cases hbuffer : v.pausedBuffer = []
    · simpa [togglePause, hpaused, flushPausedBuffer, hbuffer] using
        (⟨hv.rows, hv.length_le, hv.matchCount⟩ : Consistent { v with paused := false } regExp)
    · simp only [togglePause, hpaused, Bool.not_true, Bool.false_eq_true, if_false,
        flushPausedBuffer, List.length_eq_zero_iff, hbuffer]
      refine consistent_applyFilter fun _ => ?_
      split_ifs with htrim
      · exact length_slice_le _
      · exact Nat.not_lt.mp htrim
  · simpa [togglePause, hpaused] using
      (⟨hv.rows, hv.length_le, hv.matchCount⟩ : Consistent { v with paused := true } regExp)

/-- What fits is shown. -/
theorem consistent_step (a : LogViewerAction) (hv : v.Consistent regExp)
    (hfits : v.Fits regExp a) : (v.step regExp a).Consistent regExp := by
  have hlength := hv.rows.length_eq
  cases a with
  | addLine text type now => exact consistent_addLine text type now hv hfits
  | addLines texts now => exact consistent_addLines texts now hv hfits
  | togglePause => exact consistent_togglePause hv
  | setFilter filter =>
    refine consistent_applyFilter fun hresized => ?_
    have := hv.length_le hresized
    simp only
    omega
  | clear =>
    refine ⟨.nil, fun _ => Nat.zero_le _, ?_⟩
    exact hv.matchCount.trans hfits
  | setBufferSize maxLines =>
    exact ⟨hv.rows, fun h => absurd h (by simp [step]), hv.matchCount⟩

/-- What does not fit breaks it. -/
theorem not_consistent_step (a : LogViewerAction) (hv : v.Consistent regExp)
    (hfits : ¬ v.Fits regExp a) : ¬ (v.step regExp a).Consistent regExp := by
  have hlength := hv.rows.length_eq
  cases a with
  | addLine text type now =>
    simp only [Fits, Classical.not_imp, Nat.not_lt] at hfits
    have hfull := length_addLine_of_full regExp text type now hfits.1 hfits.2 hlength
    intro hw
    have := hw.rows.length_eq
    simp only [step] at this
    omega
  | addLines texts now => exact not_consistent_addLines texts now hv hfits
  | clear =>
    intro hw
    exact hfits (hv.matchCount.symm.trans hw.matchCount)
  | togglePause | setFilter _ | setBufferSize _ => exact absurd trivial hfits

/-- **The viewer is consistent exactly while everything fits**: in the runs in which no single line
is added to a full buffer, no batch is longer than the buffer or pushes a matching line out, and no
matching line is cleared. -/
theorem consistent_iff (regExp : RegExpEngine) (maxLines : BufferSize) {as : List LogViewerAction}
    {s : LogViewer} (hrun : (logViewerMachine regExp maxLines).run (.new maxLines) as = some s) :
    (logViewerMachine regExp maxLines).Throughout (Consistent · regExp) as ↔
      (logViewerMachine regExp maxLines).EveryStep (Fits · regExp) as := by
  refine Machine.throughout_iff_everyStep (I := fun v => v.Consistent regExp)
    ⟨.nil, fun _ => Nat.zero_le _, rfl⟩ ?_ (fun _ h => h) ?_ hrun
  · intro v a w hv hfits hw
    exact Option.some.inj hw ▸ consistent_step a hv hfits
  · intro v a w hv hfits hw
    exact Option.some.inj hw ▸ not_consistent_step a hv hfits

/-- A line in a buffer for one. -/
theorem consistent_iff_oneMatch :
    (logViewerMachine plainRegExp ⟨1, by decide⟩).Throughout (Consistent · plainRegExp) oneMatch ↔
      (logViewerMachine plainRegExp ⟨1, by decide⟩).EveryStep (Fits · plainRegExp) oneMatch :=
  consistent_iff plainRegExp ⟨1, by decide⟩ rfl

end LogViewer

end UnisetPanel
