/-
  The journal view of the browser (`35-journal.js`): live rows and pages.

  The rows that the view has loaded are `messages`, and a live row is put on top
  of the displayed ones without being added there.  So the next page, asked for
  with the number of the loaded rows as its offset, begins with rows that are
  displayed already, and rendering it drops the live ones; and rows held while
  paused come a second time if a reload has shown them meanwhile
  (`not_journalConsistent`).

  All is as it should be in the runs in which no page is asked for after rows
  have arrived since the last load, and no resume finds a held row displayed
  (`journalConsistent_of_inStep`).

  Every step is a call with its request, which succeeds, and the view has no
  filter.  The table grows by the rows that are delivered live.
-/
import UnisetPanel.Journal.Client
import UnisetPanel.Machine

namespace UnisetPanel

/-- `JournalRenderer`, and the rows of its table from the top. -/
structure JournalRenderer where
  messages : List JournalRow
  isPaused : Bool
  pendingMessages : List JournalRow
  offset : ℕ
  total : ℕ
  hasMore : Bool
  displayed : List JournalRow

namespace JournalRenderer

/-- `constructor`. -/
def new : JournalRenderer where
  messages := []
  isPaused := false
  pendingMessages := []
  offset := 0
  total := 0
  hasMore := true
  displayed := []

/-- `this.limit`. -/
def limit : ℕ := 100

/-- `renderMessages`. -/
def renderMessages (v : JournalRenderer) : JournalRenderer := { v with displayed := v.messages }

/-- `loadMessages`; `answer` is the answer to a limit and an offset. -/
def loadMessages (v : JournalRenderer) (answer : ℤ → ℤ → MessagesResponse) (append : Bool) :
    JournalRenderer :=
  let data := answer limit (if append then v.offset else 0)
  let v := if append then { v with messages := v.messages ++ data.messages }
    else { v with messages := data.messages, offset := 0 }
  renderMessages { v with total := data.total, hasMore := v.messages.length < data.total }

/-- `loadMore`. -/
def loadMore (v : JournalRenderer) (answer : ℤ → ℤ → MessagesResponse) : JournalRenderer :=
  if v.hasMore then { v with offset := v.messages.length }.loadMessages answer true else v

/-- `addNewMessages`. -/
def addNewMessages (v : JournalRenderer) (messages : List JournalRow) : JournalRenderer :=
  { v with
    -- each row goes before the first
    displayed := messages.foldl (fun rows row => row :: rows) v.displayed
    total := v.total + messages.length }

/-- `handleNewMessages`. -/
def handleNewMessages (v : JournalRenderer) (messages : List JournalRow) : JournalRenderer :=
  if v.isPaused then { v with pendingMessages := v.pendingMessages ++ messages }
  else v.addNewMessages messages

/-- `togglePause`. -/
def togglePause (v : JournalRenderer) : JournalRenderer :=
  let v := { v with isPaused := !v.isPaused }
  if !v.isPaused && 0 < v.pendingMessages.length then
    { v.addNewMessages v.pendingMessages with pendingMessages := [] }
  else v

end JournalRenderer

/-- A table whose rows have distinct timestamps. -/
structure JournalTable where
  rows : List JournalRow
  distinct : (rows.map JournalRow.timestamp).Nodup

/-- The table with new rows, if their timestamps are distinct from all others. -/
def JournalTable.append (table : JournalTable) (messages : List JournalMessage) :
    Option (JournalTable × List JournalRow) :=
  let new := messages.mapIdx fun i message => ⟨table.rows.length + i, message⟩
  if h : ((table.rows ++ new).map JournalRow.timestamp).Nodup then some (⟨table.rows ++ new, h⟩, new)
  else none

/-- The table of the server, and a view of it. -/
structure JournalView where
  table : JournalTable
  renderer : JournalRenderer
  /-- the rows delivered while not paused since the last full reload -/
  live : List JournalRow
  /-- how many rows the table had at the last load -/
  loaded : ℕ

/-- The steps of a view; the answers of the server come in an order `o`. -/
inductive JournalViewAction where
  | loadMessages (o : RowOrder (· ≥ ·))
  | loadMore (o : RowOrder (· ≥ ·))
  /-- an event `journal_messages` -/
  | newMessages (messages : List JournalMessage)
  | togglePause

namespace JournalView

/-- The view as it is opened. -/
def new (table : JournalTable) : JournalView := ⟨table, .new, [], table.rows.length⟩

/-- The server answers the request of a page, without a filter. -/
def answer (s : JournalView) (o : RowOrder (· ≥ ·)) : ℤ → ℤ → MessagesResponse :=
  queryMessages o (fun _ => true) s.table.rows

/-- `loadMessages`. -/
def loadMessages (s : JournalView) (o : RowOrder (· ≥ ·)) : JournalView :=
  { s with
    renderer := s.renderer.loadMessages (s.answer o) false
    live := []
    loaded := s.table.rows.length }

/-- `loadMore`. -/
def loadMore (s : JournalView) (o : RowOrder (· ≥ ·)) : JournalView :=
  { s with
    renderer := s.renderer.loadMore (s.answer o)
    loaded := if s.renderer.hasMore then s.table.rows.length else s.loaded }

/-- Rows are appended and delivered. -/
def newMessages (s : JournalView) (messages : List JournalMessage) : Option JournalView :=
  (s.table.append messages).map fun (table, new) =>
    { s with
      table := table
      renderer := s.renderer.handleNewMessages new
      live := if s.renderer.isPaused then s.live else s.live ++ new }

/-- One step. -/
def step (s : JournalView) : JournalViewAction → Option JournalView
  | .loadMessages o => some (s.loadMessages o)
  | .loadMore o => some (s.loadMore o)
  | .newMessages messages => s.newMessages messages
  | .togglePause => some { s with renderer := s.renderer.togglePause }

end JournalView

/-- The runs of a view of the table. -/
def journalViewMachine (table : JournalTable) : Machine JournalView JournalViewAction where
  init := .new table
  step := JournalView.step

namespace JournalView

/-! ### What is wanted -/

/-- **No row is displayed twice**, and every row delivered live stays displayed. -/
structure Displays (s : JournalView) : Prop where
  once : (s.renderer.displayed.map JournalRow.timestamp).Nodup
  live : ∀ row ∈ s.live, row.timestamp ∈ s.renderer.displayed.map JournalRow.timestamp

/-- The rows, the newest first. -/
def newestFirst (rows : List JournalRow) : List JournalRow :=
  (RowOrder.stable (· ≥ ·)).sort rows

/-- The rows older than all that are displayed; where none is displayed, all but the held ones. -/
def older (s : JournalView) : List JournalRow :=
  (newestFirst s.table.rows).filter fun row =>
    (∀ d ∈ s.renderer.displayed, row.timestamp < d.timestamp) ∧
      (s.renderer.displayed = [] →
        row.timestamp ∉ s.renderer.pendingMessages.map JournalRow.timestamp)

/-- **`loadMore` adds exactly the next older rows.** -/
def AddsNext (s : JournalView) : JournalViewAction → Prop
  | .loadMore o => (s.loadMore o).renderer.displayed =
      s.renderer.displayed ++ s.older.take JournalRenderer.limit
  | .loadMessages _ | .newMessages _ | .togglePause => True

/-- A page is asked for only where no row has arrived since the last load and none was put on top of
the loaded ones; where none is asked for, no held row is older than all displayed ones; and a resume
finds no held row displayed. -/
def InStep (s : JournalView) : JournalViewAction → Prop
  | .loadMore _ =>
    (s.renderer.hasMore = true →
      s.loaded = s.table.rows.length ∧ s.renderer.displayed = s.renderer.messages) ∧
    (s.renderer.hasMore = false → ∀ row ∈ s.renderer.pendingMessages,
      s.renderer.displayed ≠ [] → ∃ d ∈ s.renderer.displayed, d.timestamp ≤ row.timestamp)
  | .togglePause => s.renderer.isPaused = true → ∀ row ∈ s.renderer.pendingMessages,
      row.timestamp ∉ s.renderer.displayed.map JournalRow.timestamp
  | .loadMessages _ | .newMessages _ => True

/-! ### A live row before a page, and a reload before a resume -/

/-- A message. -/
def textAt (t : ℤ) : JournalMessage := ⟨t, 0, "AI1", "text", "Normal", "", ""⟩

/-- A table with a row at each of the first `n` times. -/
def tableOf (n : ℕ) : JournalTable where
  rows := (List.range n).map fun i => ⟨i, textAt i⟩
  distinct := by
    rw [List.map_map]
    refine List.Nodup.map ?_ List.nodup_range
    intro i j h
    exact Int.ofNat.inj h

/-- An order of the answers; the timestamps leave no other. -/
def newest : RowOrder (· ≥ ·) := .stable (· ≥ ·)

/-- The view of a table after some steps. -/
def stateAfter (table : JournalTable) (as : List JournalViewAction) : Option JournalView :=
  (journalViewMachine table).run (.new table) as

/-- A live row after the first page. -/
def livePage : List JournalViewAction := [.loadMessages newest, .newMessages [textAt 101]]

/-- **It fails.** With a row more than a page in the table, the page after a live row shows a row
twice and the live row no more, and it is not the next one. And a row held while paused is shown
twice if a reload comes before the resume. -/
theorem not_journalConsistent :
    (¬ ∀ table as, ∀ s ∈ stateAfter table as,
      (s.renderer.displayed.map JournalRow.timestamp).Nodup) ∧
    (¬ ∀ table as, ∀ s ∈ stateAfter table as, ∀ row ∈ s.live,
      row.timestamp ∈ s.renderer.displayed.map JournalRow.timestamp) ∧
    (¬ ∀ table as, ∀ s ∈ stateAfter table as, s.AddsNext (.loadMore newest)) ∧
    ¬ ∀ as, ∀ s ∈ stateAfter (tableOf 0) as,
      (s.renderer.displayed.map JournalRow.timestamp).Nodup := by
  refine ⟨?_, ?_, ?_, ?_⟩
  · intro h
    exact absurd (h (tableOf 101) (livePage ++ [.loadMore newest])) (by decide +kernel)
  · intro h
    exact absurd (h (tableOf 101) (livePage ++ [.loadMore newest])) (by decide +kernel)
  · intro h
    have htimes : ∀ s ∈ stateAfter (tableOf 101) livePage,
        (s.loadMore newest).renderer.displayed.map JournalRow.timestamp =
          (s.renderer.displayed ++ s.older.take JournalRenderer.limit).map JournalRow.timestamp :=
      fun s hs => congrArg _ (h (tableOf 101) livePage s hs)
    exact absurd htimes (by decide +kernel)
  · intro h
    exact absurd (h [.togglePause, .newMessages [textAt 0], .loadMessages newest, .togglePause])
      (by decide +kernel)

/-! ### Pages -/

variable {s t : JournalView} {rows : List JournalRow}

theorem perm_newestFirst (rows : List JournalRow) : (newestFirst rows).Perm rows :=
  (RowOrder.stable (· ≥ ·)).perm rows

theorem length_newestFirst (rows : List JournalRow) : (newestFirst rows).length = rows.length :=
  (perm_newestFirst rows).length_eq

/-- Rows of distinct timestamps, the newest first, are each older than those before. -/
theorem pairwise_newestFirst (hdistinct : (rows.map JournalRow.timestamp).Nodup) :
    (newestFirst rows).Pairwise fun a b => b.timestamp < a.timestamp := by
  have hnodup : ((newestFirst rows).map JournalRow.timestamp).Nodup :=
    ((perm_newestFirst rows).map _).nodup_iff.mpr hdistinct
  have hne := List.pairwise_map.mp hnodup
  have hsorted := (RowOrder.stable (· ≥ ·)).pairwise rows
  refine hsorted.imp₂ ?_ hne
  intro a b hge hne
  omega

/-- **The answer** to the request of a page. -/
theorem answer_eq (s : JournalView) (o : RowOrder (· ≥ ·)) (offset : ℕ) :
    (s.answer o JournalRenderer.limit offset).messages =
        ((newestFirst s.table.rows).drop offset).take JournalRenderer.limit ∧
      (s.answer o JournalRenderer.limit offset).total = s.table.rows.length := by
  have hall : (s.table.rows.filter fun row => (fun _ => true) row.message) = s.table.rows :=
    List.filter_eq_self.mpr fun _ _ => rfl
  have hsort : o.sort s.table.rows = newestFirst s.table.rows :=
    o.sort_eq_sort (.stable (· ≥ ·)) s.table.distinct
  unfold answer queryMessages
  dsimp only
  rw [hall, hsort, Int.toNat_natCast]
  exact ⟨rfl, rfl⟩

/-- What a full reload makes of the renderer. -/
theorem loadMessages_renderer (s : JournalView) (o : RowOrder (· ≥ ·)) :
    (s.loadMessages o).renderer = { s.renderer with
      messages := (newestFirst s.table.rows).take JournalRenderer.limit
      displayed := (newestFirst s.table.rows).take JournalRenderer.limit
      offset := 0
      total := s.table.rows.length
      hasMore := decide (((newestFirst s.table.rows).take JournalRenderer.limit).length <
        s.table.rows.length) } := by
  obtain ⟨hmessages, htotal⟩ := s.answer_eq o 0
  rw [List.drop_zero] at hmessages
  unfold loadMessages JournalRenderer.loadMessages JournalRenderer.renderMessages
  simp only [Bool.false_eq_true, if_false]
  have hzero : ((0 : ℕ) : ℤ) = 0 := rfl
  rw [hzero] at hmessages htotal
  rw [hmessages, htotal]

/-- What a page makes of the renderer. -/
theorem loadMore_renderer (s : JournalView) (o : RowOrder (· ≥ ·))
    (hmore : s.renderer.hasMore = true) :
    (s.loadMore o).renderer = { s.renderer with
      messages := s.renderer.messages ++
        ((newestFirst s.table.rows).drop s.renderer.messages.length).take JournalRenderer.limit
      displayed := s.renderer.messages ++
        ((newestFirst s.table.rows).drop s.renderer.messages.length).take JournalRenderer.limit
      offset := s.renderer.messages.length
      total := s.table.rows.length
      hasMore := decide ((s.renderer.messages ++ ((newestFirst s.table.rows).drop
        s.renderer.messages.length).take JournalRenderer.limit).length < s.table.rows.length) } := by
  obtain ⟨hmessages, htotal⟩ := s.answer_eq o s.renderer.messages.length
  unfold loadMore JournalRenderer.loadMore JournalRenderer.loadMessages
    JournalRenderer.renderMessages
  simp only [hmore, if_true]
  rw [hmessages, htotal]

/-- What `addNewMessages` puts on top. -/
theorem addNewMessages_displayed (v : JournalRenderer) (messages : List JournalRow) :
    (v.addNewMessages messages).displayed = messages.reverse ++ v.displayed := by
  unfold JournalRenderer.addNewMessages
  dsimp only
  rw [List.foldl_flip_cons_eq_append, List.map_id']

/-! ### The invariant -/

/-- The loaded rows are the newest of those the table had at the last load, all of them if there are
no more; they are displayed with others on top, the live ones among these; what has arrived since is
displayed or held. -/
structure ViewInv (s : JournalView) : Prop where
  loaded_le : s.loaded ≤ s.table.rows.length
  page : s.renderer.messages <+: newestFirst (s.table.rows.take s.loaded)
  all : s.renderer.hasMore = false → s.renderer.messages.length = s.loaded
  first : s.renderer.hasMore = true → s.renderer.messages = [] →
    ∀ row ∈ s.renderer.pendingMessages, row ∈ s.table.rows.drop s.loaded
  onTop : ∃ top, s.renderer.displayed = top ++ s.renderer.messages ∧ ∀ row ∈ s.live, row ∈ top
  known : ∀ row ∈ s.renderer.displayed, row ∈ s.table.rows
  once : (s.renderer.displayed.map JournalRow.timestamp).Nodup
  held : ∀ row ∈ s.renderer.pendingMessages, row ∈ s.table.rows
  heldOnce : (s.renderer.pendingMessages.map JournalRow.timestamp).Nodup
  arrived : ∀ row ∈ s.table.rows.drop s.loaded,
    row ∈ s.renderer.displayed ∨ row ∈ s.renderer.pendingMessages
  running : s.renderer.isPaused = false → s.renderer.pendingMessages = []

theorem ViewInv.displays (h : s.ViewInv) : s.Displays := by
  refine ⟨h.once, ?_⟩
  intro row hrow
  obtain ⟨top, hdisplayed, hlive⟩ := h.onTop
  rw [hdisplayed]
  exact List.mem_map_of_mem (List.mem_append_left _ (hlive row hrow))

theorem viewInv_new (table : JournalTable) : (new table).ViewInv := by
  constructor
  · exact Nat.le_refl _
  · exact List.nil_prefix
  · intro h
    cases h
  · intro _ _ row hrow
    exact absurd hrow List.not_mem_nil
  · exact ⟨[], rfl, fun row hrow => hrow⟩
  · intro row hrow
    exact absurd hrow List.not_mem_nil
  · exact List.nodup_nil
  · intro row hrow
    exact absurd hrow List.not_mem_nil
  · exact List.nodup_nil
  · intro row hrow
    rw [show (new table).loaded = table.rows.length from rfl] at hrow
    rw [show (new table).table = table from rfl, List.drop_length] at hrow
    exact absurd hrow List.not_mem_nil
  · intro _
    rfl

/-- The rows of a page are rows of the table, each once. -/
theorem nodup_of_prefix {messages : List JournalRow}
    (hdistinct : (rows.map JournalRow.timestamp).Nodup) (hpage : messages <+: newestFirst rows) :
    (messages.map JournalRow.timestamp).Nodup ∧ ∀ row ∈ messages, row ∈ rows := by
  constructor
  · have hnodup : ((newestFirst rows).map JournalRow.timestamp).Nodup :=
      ((perm_newestFirst rows).map _).nodup_iff.mpr hdistinct
    exact (hpage.sublist.map _).nodup hnodup
  · intro row hrow
    exact (perm_newestFirst rows).mem_iff.mp (hpage.subset hrow)

/-- A load leaves a view that shows the loaded rows and no others. -/
theorem ViewInv.load (h : s.ViewInv) {v : JournalRenderer} {live : List JournalRow}
    (hpage : v.messages <+: newestFirst s.table.rows) (hdisplayed : v.displayed = v.messages)
    (hmore : v.hasMore = decide (v.messages.length < s.table.rows.length))
    (hfull : v.messages = [] → s.table.rows = []) (hlive : live = [])
    (hpending : v.pendingMessages = s.renderer.pendingMessages)
    (hpaused : v.isPaused = s.renderer.isPaused) :
    ViewInv { s with renderer := v, live := live, loaded := s.table.rows.length } := by
  obtain ⟨hnodup, hmem⟩ := nodup_of_prefix s.table.distinct hpage
  have hle : v.messages.length ≤ s.table.rows.length :=
    hpage.length_le.trans_eq (length_newestFirst _)
  constructor
  · exact Nat.le_refl _
  · dsimp only
    rw [List.take_length]
    exact hpage
  · intro hnone
    have hnot : ¬ v.messages.length < s.table.rows.length :=
      of_decide_eq_false (hmore.symm.trans hnone)
    dsimp only
    omega
  · intro hsome hnil
    have hlt : v.messages.length < s.table.rows.length :=
      of_decide_eq_true (hmore.symm.trans hsome)
    rw [hfull hnil] at hlt
    exact absurd hlt (Nat.not_lt_zero _)
  · refine ⟨[], hdisplayed, ?_⟩
    dsimp only
    rw [hlive]
    exact fun row hrow => hrow
  · dsimp only
    rw [hdisplayed]
    exact hmem
  · dsimp only
    rw [hdisplayed]
    exact hnodup
  · dsimp only
    rw [hpending]
    exact h.held
  · dsimp only
    rw [hpending]
    exact h.heldOnce
  · intro row hrow
    dsimp only at hrow
    rw [List.drop_length] at hrow
    exact absurd hrow List.not_mem_nil
  · dsimp only
    rw [hpending, hpaused]
    exact h.running

theorem ViewInv.loadMessages (h : s.ViewInv) (o : RowOrder (· ≥ ·)) : (s.loadMessages o).ViewInv := by
  have hrenderer := s.loadMessages_renderer o
  have hview : s.loadMessages o = { s with
      renderer := (s.loadMessages o).renderer, live := [], loaded := s.table.rows.length } := rfl
  rw [hview, hrenderer]
  refine h.load (List.take_prefix _ _) rfl rfl ?_ rfl rfl rfl
  intro hnil
  have hlength := congrArg List.length hnil
  rw [List.length_take, length_newestFirst] at hlength
  unfold JournalRenderer.limit at hlength
  apply List.eq_nil_of_length_eq_zero
  simp only [List.length_nil] at hlength
  omega

/-- The rows are the loaded ones and those of the pages that follow. -/
theorem ViewInv.newestFirst_eq (h : s.ViewInv) (hloaded : s.loaded = s.table.rows.length) :
    s.renderer.messages ++ (newestFirst s.table.rows).drop s.renderer.messages.length =
      newestFirst s.table.rows := by
  have hpage := h.page
  rw [hloaded, List.take_length] at hpage
  obtain ⟨rest, hrest⟩ := hpage
  rw [← hrest, List.drop_left]

theorem ViewInv.loadMore (h : s.ViewInv) (o : RowOrder (· ≥ ·)) (hstep : s.InStep (.loadMore o)) :
    (s.loadMore o).ViewInv := by
  cases hmore : s.renderer.hasMore with
  | false =>
    have hsame : s.loadMore o = s := by
      unfold JournalView.loadMore JournalRenderer.loadMore
      rw [hmore]
      rfl
    rw [hsame]
    exact h
  | true =>
    obtain ⟨hloaded, hdisplayed⟩ := hstep.1 hmore
    have hview : s.loadMore o = { s with
        renderer := (s.loadMore o).renderer, live := s.live, loaded := s.table.rows.length } := by
      unfold JournalView.loadMore
      rw [hmore]
      rfl
    rw [hview, s.loadMore_renderer o hmore]
    refine h.load ?_ rfl rfl ?_ ?_ rfl rfl
    · dsimp only
      rw [← h.newestFirst_eq hloaded, List.drop_left]
      exact List.prefix_append_right_inj _ |>.mpr (List.take_prefix _ _)
    · intro hnil
      obtain ⟨hempty, hnext⟩ := List.append_eq_nil_iff.mp hnil
      rw [hempty, List.length_nil, List.drop_zero] at hnext
      have hlength := congrArg List.length hnext
      rw [List.length_take, length_newestFirst, List.length_nil] at hlength
      unfold JournalRenderer.limit at hlength
      apply List.eq_nil_of_length_eq_zero
      omega
    · -- nothing was put on top, so nothing live either
      obtain ⟨top, htop, hlive⟩ := h.onTop
      have hnone : top = [] := by
        rw [hdisplayed] at htop
        exact List.self_eq_append_left.mp htop
      rw [hnone] at hlive
      exact List.eq_nil_iff_forall_not_mem.mpr fun row hrow =>
        absurd (hlive row hrow) List.not_mem_nil

/-- Where no page is asked for, no older row is left. -/
theorem ViewInv.older_eq_nil (h : s.ViewInv) (hmore : s.renderer.hasMore = false)
    (hheld : ∀ row ∈ s.renderer.pendingMessages,
      s.renderer.displayed ≠ [] → ∃ d ∈ s.renderer.displayed, d.timestamp ≤ row.timestamp) :
    s.older = [] := by
  apply List.filter_eq_nil_iff.mpr
  intro row hrow holder
  obtain ⟨hall, hnone⟩ := of_decide_eq_true holder
  have hmem : row ∈ s.table.rows := (perm_newestFirst _).mem_iff.mp hrow
  have hnot : row ∉ s.renderer.displayed := fun hd => absurd (hall row hd) (Int.lt_irrefl _)
  rw [← List.take_append_drop s.loaded s.table.rows] at hmem
  rcases List.mem_append.mp hmem with hmem | hmem
  · -- the loaded rows are all that the table had
    obtain ⟨top, htop, -⟩ := h.onTop
    have hlength : s.renderer.messages.length =
        (newestFirst (s.table.rows.take s.loaded)).length := by
      have hle := h.loaded_le
      rw [h.all hmore, length_newestFirst, List.length_take]
      omega
    have hpage := h.page.eq_of_length hlength
    apply hnot
    rw [htop, hpage]
    exact List.mem_append_right _ ((perm_newestFirst _).mem_iff.mpr hmem)
  · rcases h.arrived row hmem with hd | hp
    · exact hnot hd
    · by_cases hempty : s.renderer.displayed = []
      · exact hnone hempty (List.mem_map_of_mem hp)
      · obtain ⟨d, hd, hle⟩ := hheld row hp hempty
        have hlt := hall d hd
        omega

/-- Where one is asked for, the older rows are those after the loaded ones. -/
theorem ViewInv.older_eq_drop (h : s.ViewInv) (hmore : s.renderer.hasMore = true)
    (hloaded : s.loaded = s.table.rows.length)
    (hdisplayed : s.renderer.displayed = s.renderer.messages) :
    s.older = (newestFirst s.table.rows).drop s.renderer.messages.length := by
  have hsorted := pairwise_newestFirst s.table.distinct
  rw [← h.newestFirst_eq hloaded] at hsorted
  obtain ⟨-, -, hafter⟩ := List.pairwise_append.mp hsorted
  unfold older
  rw [hdisplayed, ← h.newestFirst_eq hloaded, List.filter_append, List.drop_left]
  have hfirst : s.renderer.messages.filter (fun row =>
      (∀ d ∈ s.renderer.messages, row.timestamp < d.timestamp) ∧
        (s.renderer.messages = [] →
          row.timestamp ∉ s.renderer.pendingMessages.map JournalRow.timestamp)) = [] := by
    apply List.filter_eq_nil_iff.mpr
    intro row hrow holder
    exact absurd ((of_decide_eq_true holder).1 row hrow) (Int.lt_irrefl _)
  rw [hfirst, List.nil_append]
  apply List.filter_eq_self.mpr
  intro row hrow
  apply decide_eq_true
  refine ⟨fun d hd => hafter d hd row hrow, ?_⟩
  intro hempty hp
  obtain ⟨p, hp, -⟩ := List.mem_map.mp hp
  have harrived := h.first hmore hempty p hp
  rw [hloaded, List.drop_length] at harrived
  exact absurd harrived List.not_mem_nil

/-- **The next page** is what follows the displayed rows. -/
theorem ViewInv.addsNext (h : s.ViewInv) (o : RowOrder (· ≥ ·)) (hstep : s.InStep (.loadMore o)) :
    s.AddsNext (.loadMore o) := by
  unfold AddsNext
  dsimp only
  cases hmore : s.renderer.hasMore with
  | false =>
    have hsame : (s.loadMore o).renderer = s.renderer := by
      unfold JournalView.loadMore JournalRenderer.loadMore
      rw [hmore]
      rfl
    rw [hsame, h.older_eq_nil hmore (hstep.2 hmore), List.take_nil, List.append_nil]
  | true =>
    obtain ⟨hloaded, hdisplayed⟩ := hstep.1 hmore
    rw [s.loadMore_renderer o hmore, h.older_eq_drop hmore hloaded hdisplayed, hdisplayed]

/-! ### Live rows -/

/-- The rows that are held back and those that are new have different times. -/
theorem ViewInv.nodup_held (h : s.ViewInv) {new : List JournalRow} {table : JournalTable}
    (htable : table.rows = s.table.rows ++ new) :
    ((s.renderer.pendingMessages ++ new).map JournalRow.timestamp).Nodup := by
  have hdistinct := table.distinct
  rw [htable, List.map_append] at hdistinct
  obtain ⟨-, hnew, hdisjoint⟩ := List.nodup_append'.mp hdistinct
  rw [List.map_append]
  refine List.nodup_append'.mpr ⟨h.heldOnce, hnew, ?_⟩
  intro time hheld
  obtain ⟨row, hrow, rfl⟩ := List.mem_map.mp hheld
  exact hdisjoint (List.mem_map_of_mem (h.held row hrow))

/-- **The table grows**, and of the held and the new rows some are put on top of the displayed ones
and the others held. -/
theorem ViewInv.grow (h : s.ViewInv) (new shown : List JournalRow) {table : JournalTable}
    {live : List JournalRow} {v : JournalRenderer} (htable : table.rows = s.table.rows ++ new)
    (hmessages : v.messages = s.renderer.messages) (hmore : v.hasMore = s.renderer.hasMore)
    (hdisplayed : v.displayed = shown ++ s.renderer.displayed)
    (hperm : (shown ++ v.pendingMessages).Perm (s.renderer.pendingMessages ++ new))
    (hnot : ∀ row ∈ shown, row.timestamp ∉ s.renderer.displayed.map JournalRow.timestamp)
    (hlive : ∀ row ∈ live, row ∈ s.live ∨ row ∈ shown)
    (hrunning : v.isPaused = false → v.pendingMessages = []) :
    ViewInv { s with table := table, renderer := v, live := live } := by
  have hmem : ∀ row ∈ s.renderer.pendingMessages ++ new, row ∈ table.rows := by
    intro row hrow
    rw [htable]
    rcases List.mem_append.mp hrow with hrow | hrow
    · exact List.mem_append_left _ (h.held row hrow)
    · exact List.mem_append_right _ hrow
  have honce : ((shown ++ v.pendingMessages).map JournalRow.timestamp).Nodup := by
    rw [(hperm.map _).nodup_iff]
    exact h.nodup_held htable
  rw [List.map_append] at honce
  obtain ⟨hshown, hheld, -⟩ := List.nodup_append'.mp honce
  constructor
  · dsimp only
    rw [htable, List.length_append]
    exact h.loaded_le.trans (Nat.le_add_right _ _)
  · dsimp only
    rw [hmessages, htable, List.take_append_of_le_length h.loaded_le]
    exact h.page
  · dsimp only
    rw [hmessages, hmore]
    exact h.all
  · intro hsome hnil row hrow
    dsimp only at hsome hnil hrow ⊢
    rw [htable, List.drop_append_of_le_length h.loaded_le]
    rcases List.mem_append.mp (hperm.mem_iff.mp (List.mem_append_right _ hrow)) with hold | hnew
    · exact List.mem_append_left _ (h.first (hmore ▸ hsome) (hmessages ▸ hnil) row hold)
    · exact List.mem_append_right _ hnew
  · obtain ⟨top, htop, hbefore⟩ := h.onTop
    refine ⟨shown ++ top, ?_, ?_⟩
    · dsimp only
      rw [hdisplayed, htop, hmessages, List.append_assoc]
    · intro row hrow
      rcases hlive row hrow with hold | hnew
      · exact List.mem_append_right _ (hbefore row hold)
      · exact List.mem_append_left _ hnew
  · intro row hrow
    dsimp only at hrow ⊢
    rw [hdisplayed] at hrow
    rcases List.mem_append.mp hrow with hrow | hrow
    · exact hmem row (hperm.mem_iff.mp (List.mem_append_left _ hrow))
    · rw [htable]
      exact List.mem_append_left _ (h.known row hrow)
  · dsimp only
    rw [hdisplayed, List.map_append]
    refine List.nodup_append'.mpr ⟨hshown, h.once, ?_⟩
    intro time htime
    obtain ⟨row, hrow, rfl⟩ := List.mem_map.mp htime
    exact hnot row hrow
  · intro row hrow
    exact hmem row (hperm.mem_iff.mp (List.mem_append_right _ hrow))
  · exact hheld
  · intro row hrow
    dsimp only at hrow ⊢
    rw [htable, List.drop_append_of_le_length h.loaded_le] at hrow
    have hheldOrNew : row ∈ s.renderer.pendingMessages ++ new →
        row ∈ v.displayed ∨ row ∈ v.pendingMessages := by
      intro hin
      rw [hdisplayed]
      rcases List.mem_append.mp (hperm.mem_iff.mpr hin) with hin | hin
      · exact Or.inl (List.mem_append_left _ hin)
      · exact Or.inr hin
    rcases List.mem_append.mp hrow with hold | hnew
    · rcases h.arrived row hold with hd | hp
      · rw [hdisplayed]
        exact Or.inl (List.mem_append_right _ hd)
      · exact hheldOrNew (List.mem_append_left _ hp)
    · exact hheldOrNew (List.mem_append_right _ hnew)
  · exact hrunning

theorem ViewInv.newMessages (h : s.ViewInv) {messages : List JournalMessage}
    (hstep : s.newMessages messages = some t) : t.ViewInv := by
  obtain ⟨⟨table, new⟩, happend, rfl⟩ := Option.map_eq_some_iff.mp hstep
  have htable : table.rows = s.table.rows ++ new := by
    unfold JournalTable.append at happend
    dsimp only at happend
    split_ifs at happend
    obtain ⟨rfl, rfl⟩ := Prod.mk.inj (Option.some.inj happend)
    rfl
  cases hpaused : s.renderer.isPaused with
  | true =>
    have hrenderer : s.renderer.handleNewMessages new =
        { s.renderer with pendingMessages := s.renderer.pendingMessages ++ new } :=
      if_pos hpaused
    dsimp only
    rw [hrenderer, if_pos rfl]
    refine h.grow new [] htable rfl rfl rfl (List.Perm.refl _) ?_ ?_ ?_
    · intro row hrow
      exact absurd hrow List.not_mem_nil
    · intro row hrow
      exact Or.inl hrow
    · intro hrunning
      exact absurd (hpaused.symm.trans hrunning) Bool.true_eq_false.mp
  | false =>
    have hnone := h.running hpaused
    have hrenderer : s.renderer.handleNewMessages new = s.renderer.addNewMessages new :=
      if_neg (by rw [hpaused]; exact Bool.false_ne_true)
    dsimp only
    rw [hrenderer, if_neg Bool.false_ne_true]
    refine h.grow new new.reverse htable rfl rfl (addNewMessages_displayed _ _) ?_ ?_ ?_ ?_
    · have hpending : (s.renderer.addNewMessages new).pendingMessages = [] := hnone
      rw [hpending, hnone, List.append_nil, List.nil_append]
      exact List.reverse_perm new
    · intro row hrow hold
      have hdistinct := table.distinct
      rw [htable, List.map_append] at hdistinct
      obtain ⟨d, hd, heq⟩ := List.mem_map.mp hold
      exact (List.nodup_append'.mp hdistinct).2.2 (List.mem_map_of_mem (h.known d hd))
        (heq ▸ List.mem_map_of_mem (List.mem_reverse.mp hrow))
    · intro row hrow
      rcases List.mem_append.mp hrow with hrow | hrow
      · exact Or.inl hrow
      · exact Or.inr (List.mem_reverse.mpr hrow)
    · intro _
      exact hnone

theorem ViewInv.togglePause (h : s.ViewInv) (hstep : s.InStep .togglePause) :
    ViewInv { s with renderer := s.renderer.togglePause } := by
  cases hpaused : s.renderer.isPaused with
  | false =>
    have hnone := h.running hpaused
    have hrenderer : s.renderer.togglePause = { s.renderer with isPaused := true } := by
      unfold JournalRenderer.togglePause
      simp [hpaused]
    rw [hrenderer]
    refine h.grow [] [] (List.append_nil _).symm rfl rfl rfl ?_ ?_ ?_ ?_
    · rw [List.append_nil]
      exact List.Perm.refl _
    · intro row hrow
      exact absurd hrow List.not_mem_nil
    · intro row hrow
      exact Or.inl hrow
    · intro _
      exact hnone
  | true =>
    have hrenderer : s.renderer.togglePause.messages = s.renderer.messages ∧
        s.renderer.togglePause.hasMore = s.renderer.hasMore ∧
        s.renderer.togglePause.displayed =
          s.renderer.pendingMessages.reverse ++ s.renderer.displayed ∧
        s.renderer.togglePause.pendingMessages = [] := by
      unfold JournalRenderer.togglePause
      by_cases hpos : 0 < s.renderer.pendingMessages.length
      · simp only [hpaused, Bool.not_true, Bool.not_false, Bool.true_and, decide_eq_true hpos,
          if_true]
        exact ⟨rfl, rfl, addNewMessages_displayed _ _, trivial⟩
      · have hnil : s.renderer.pendingMessages = [] := List.eq_nil_of_length_eq_zero (by omega)
        simp [hpaused, hnil]
    obtain ⟨hmessages, hmore, hdisplayed, hpending⟩ := hrenderer
    refine h.grow [] s.renderer.pendingMessages.reverse
      (List.append_nil _).symm hmessages hmore hdisplayed ?_ ?_ ?_ ?_
    · rw [hpending, List.append_nil, List.append_nil]
      exact List.reverse_perm _
    · intro row hrow
      exact hstep hpaused row (List.mem_reverse.mp hrow)
    · intro row hrow
      exact Or.inl hrow
    · intro _
      exact hpending

/-- **Every step that meets the condition** keeps the invariant. -/
theorem ViewInv.step {a : JournalViewAction} (h : s.ViewInv) (hin : s.InStep a)
    (hstep : s.step a = some t) : t.ViewInv := by
  cases a with
  | loadMessages o =>
    obtain rfl := Option.some.inj hstep
    exact h.loadMessages o
  | loadMore o =>
    obtain rfl := Option.some.inj hstep
    exact h.loadMore o hin
  | newMessages messages => exact h.newMessages hstep
  | togglePause =>
    obtain rfl := Option.some.inj hstep
    exact h.togglePause hin

/-! ### Every run -/

/-- **The view displays no row twice and keeps the live ones, and every page is the next one**, in
every run in which no page is asked for after rows have arrived or were put on top since the last
load, none is left out for a held row, and no resume finds a held row displayed. -/
theorem journalConsistent_of_inStep (table : JournalTable) {as : List JournalViewAction}
    (hin : (journalViewMachine table).EveryStep InStep as) :
    (journalViewMachine table).Throughout Displays as ∧
      (journalViewMachine table).EveryStep AddsNext as := by
  have hinv : ∀ {pre post s}, as = pre ++ post → (journalViewMachine table).run (.new table) pre =
      some s → s.ViewInv := by
    rintro pre post s rfl hrun
    refine Machine.EveryStep.induction (I := ViewInv) (viewInv_new table) ?_ hin.left hrun
    intro s a t hs ha hstep
    exact hs.step ha hstep
  constructor
  · intro pre post s has hrun
    exact (hinv has hrun).displays
  · intro pre a post s has hrun
    cases a with
    | loadMore o => exact (hinv has hrun).addsNext o (hin pre _ post s has hrun)
    | loadMessages _ => trivial
    | newMessages _ => trivial
    | togglePause => trivial

/-- A page, a row that is held, and one delivered live. -/
theorem journalConsistent_oneHeldRow : (journalViewMachine (tableOf 2)).Throughout Displays
    [.loadMore newest, .togglePause, .newMessages [textAt 2], .togglePause,
      .newMessages [textAt 3]] := by
  refine (journalConsistent_of_inStep (tableOf 2) ?_).1
  refine (((((Machine.everyStep_nil.concat rfl ?_).concat rfl ?_).concat rfl ?_).concat rfl
    ?_).concat rfl ?_)
  · refine ⟨fun _ => ⟨rfl, rfl⟩, ?_⟩
    intro hmore
    cases hmore
  · intro hpaused
    cases hpaused
  · trivial
  · intro _
    decide
  · trivial

end JournalView

end UnisetPanel
