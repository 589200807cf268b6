/-
  `journal.Poller`.

  The poller keeps the latest timestamp it has seen and asks for the rows after
  it, in the order of time and not more than a limit.  So a row that has the
  timestamp of the last one returned is never returned itself: one that is
  appended after the poll, and one that the limit cuts off
  (`not_deliversOnce`).

  Every new row is delivered exactly once in exactly the runs in which no row is
  appended at the timestamp the poller stands at and no limit falls between rows
  of one timestamp (`deliversOnce_iff`).
-/
import UnisetPanel.Journal.Client
import UnisetPanel.Machine

namespace UnisetPanel

/-- The table, and the `Poller` that has started. -/
structure JournalPoller where
  rows : List JournalRow
  lastTimestamp : ℤ
  /-- what the callback was given -/
  delivered : List JournalRow
  /-- the last poll returned fewer rows than the limit, and none was appended since -/
  upToDate : Bool

/-- The steps of the table and of the poller. -/
inductive JournalAction where
  | append (message : JournalMessage)
  /-- a poll, with the order of the answer; `none` if the query fails -/
  | poll (answer : Option (RowOrder (· ≤ ·)))

namespace JournalPoller

/-- The rows that the next poll asks for. -/
def waiting (s : JournalPoller) : List JournalRow :=
  s.rows.filter fun row => s.lastTimestamp < row.timestamp

/-- The latest of a timestamp and those of the rows. -/
def latest (since : ℤ) (rows : List JournalRow) : ℤ :=
  rows.foldl (fun t row => if t < row.timestamp then row.timestamp else t) since

/-- `poll`, with the answer of the query. -/
def poll (s : JournalPoller) (messages : List JournalRow) (limit : ℤ) : JournalPoller :=
  let s := { s with upToDate := messages.length < rowLimit limit }
  if 0 < messages.length then
    { s with
      lastTimestamp := latest s.lastTimestamp messages
      delivered := s.delivered ++ messages }
  else s

/-- One step; timestamps never decrease along the table. -/
def step (limit : ℤ) (s : JournalPoller) : JournalAction → Option JournalPoller
  | .append message =>
    if ∀ row ∈ s.rows, row.timestamp ≤ message.timestamp then
      some { s with rows := s.rows ++ [⟨s.rows.length, message⟩], upToDate := false }
    else none
  | .poll (some o) => some (s.poll (getNewMessages o s.rows s.lastTimestamp limit) limit)
  | .poll none => some s

/-- The table as the poller finds it when it starts. -/
def new (old : List JournalMessage) (start : ℤ) : JournalPoller where
  rows := old.mapIdx JournalRow.mk
  lastTimestamp := start
  delivered := []
  upToDate := false

end JournalPoller

/-- The runs of a poller that started at the time `start` with the rows `old` in the table. -/
def journalMachine (old : List JournalMessage) (start limit : ℤ) :
    Machine JournalPoller JournalAction where
  init := .new old start
  step := JournalPoller.step limit

namespace JournalPoller

/-- Every row appended since the start, and later than it, was delivered exactly once; `n` is the
number of the rows before. -/
def DeliversOnce (n : ℕ) (start : ℤ) (s : JournalPoller) : Prop :=
  ∀ row ∈ s.rows, n ≤ row.id → start < row.timestamp →
    s.delivered.countP (fun d => d.id = row.id) = 1

instance (n : ℕ) (start : ℤ) (s : JournalPoller) : Decidable (s.DeliversOnce n start) :=
  inferInstanceAs (Decidable (∀ row ∈ s.rows, n ≤ row.id → start < row.timestamp →
    s.delivered.countP (fun d => d.id = row.id) = 1))

/-- No row is appended at the timestamp the poller stands at, and no limit falls between rows of one
timestamp, leaving out a new one. -/
def NoTie (n : ℕ) (start limit : ℤ) (s : JournalPoller) : JournalAction → Prop
  | .append message => start < message.timestamp → s.lastTimestamp < message.timestamp
  | .poll (some o) => ∀ row ∈ (o.sort s.waiting).take (rowLimit limit),
      ∀ row' ∈ (o.sort s.waiting).drop (rowLimit limit), n ≤ row'.id →
        row.timestamp ≠ row'.timestamp
  | .poll none => True

/-! ### Two rows of one timestamp -/

/-- A message. -/
def messageAt (t : ℤ) : JournalMessage := ⟨t, 0, "AI1", "text", "Normal", "", ""⟩

/-- A poll that is answered in the order of the table. -/
def stablePoll : JournalAction := .poll (some (.stable (· ≤ ·)))

/-- A row, a poll, and a row of the same timestamp. -/
def tieAfterPoll : List JournalAction :=
  [.append (messageAt 1), stablePoll, .append (messageAt 1), stablePoll]

/-- Two rows of one timestamp, with a limit of one. -/
def tieAcrossLimit : List JournalAction :=
  [.append (messageAt 1), .append (messageAt 1), stablePoll, stablePoll]

/-- **It fails** at the limit of the source, and at any other. -/
theorem not_deliversOnce :
    (¬ ∀ as s, (journalMachine [] 0 100).run (.new [] 0) as = some s → s.upToDate = true →
      s.DeliversOnce 0 0) ∧
    ¬ ∀ limit as s, (journalMachine [] 0 limit).run (.new [] 0) as = some s → s.upToDate = true →
      s.DeliversOnce 0 0 := by
  constructor
  · intro h
    exact absurd (h tieAfterPoll _ rfl rfl) (by decide)
  · intro h
    exact absurd (h 1 tieAcrossLimit _ rfl rfl) (by decide)

/-! ### One poll -/

variable {n : ℕ} {start limit : ℤ} {s t : JournalPoller}

theorem latest_spec (since : ℤ) (rows : List JournalRow) :
    since ≤ latest since rows ∧ (∀ row ∈ rows, row.timestamp ≤ latest since rows) ∧
      (since = latest since rows ∨ ∃ row ∈ rows, row.timestamp = latest since rows) := by
  induction rows generalizing since with
  | nil => exact ⟨le_refl _, fun _ hrow => absurd hrow List.not_mem_nil, Or.inl rfl⟩
  | cons row rows ih =>
    have hcons : latest since (row :: rows) =
        latest (if since < row.timestamp then row.timestamp else since) rows := rfl
    obtain ⟨hle, hall, hlast⟩ := ih (if since < row.timestamp then row.timestamp else since)
    rw [← hcons] at hle hall hlast
    have hsince : since ≤ if since < row.timestamp then row.timestamp else since := by
      split_ifs <;> omega
    have hrow : row.timestamp ≤ if since < row.timestamp then row.timestamp else since := by
      split_ifs <;> omega
    refine ⟨hsince.trans hle, ?_, ?_⟩
    · intro row' hrow'
      rcases List.mem_cons.mp hrow' with rfl | hrow'
      · exact hrow.trans hle
      · exact hall row' hrow'
    · rcases hlast with hlast | ⟨row', hrow', hlast⟩
      · by_cases hlt : since < row.timestamp
        · rw [if_pos hlt] at hlast
          exact Or.inr ⟨row, List.mem_cons_self, hlast⟩
        · rw [if_neg hlt] at hlast
          exact Or.inl hlast
      · exact Or.inr ⟨row', List.mem_cons_of_mem _ hrow', hlast⟩

/-- **A poll** moves on to the latest timestamp of its answer and delivers it. -/
theorem poll_spec (s : JournalPoller) (messages : List JournalRow) (limit : ℤ) :
    (s.poll messages limit).rows = s.rows ∧
      (s.poll messages limit).delivered = s.delivered ++ messages ∧
      (s.poll messages limit).upToDate = decide (messages.length < rowLimit limit) ∧
      s.lastTimestamp ≤ (s.poll messages limit).lastTimestamp ∧
      (∀ row ∈ messages, row.timestamp ≤ (s.poll messages limit).lastTimestamp) ∧
      (s.lastTimestamp = (s.poll messages limit).lastTimestamp ∨
        ∃ row ∈ messages, row.timestamp = (s.poll messages limit).lastTimestamp) := by
  unfold poll
  dsimp only
  split_ifs with hpos
  · exact ⟨rfl, rfl, rfl, latest_spec s.lastTimestamp messages⟩
  · have hnil : messages = [] := List.eq_nil_of_length_eq_zero (by omega)
    rw [hnil, List.append_nil]
    exact ⟨rfl, rfl, rfl, le_refl _, fun _ hrow => absurd hrow List.not_mem_nil, Or.inl rfl⟩

/-- What a step does. -/
theorem step_cases {a : JournalAction} (hstep : s.step limit a = some t) :
    (∃ message, a = .append message ∧
        t = { s with rows := s.rows ++ [⟨s.rows.length, message⟩], upToDate := false }) ∨
      (∃ o, a = .poll (some o) ∧
        t = s.poll (getNewMessages o s.rows s.lastTimestamp limit) limit) ∨
      (a = .poll none ∧ t = s) := by
  cases a with
  | append message =>
    have happend : (if ∀ row ∈ s.rows, row.timestamp ≤ message.timestamp then
      some { s with rows := s.rows ++ [⟨s.rows.length, message⟩], upToDate := false }
      else none) = some t := hstep
    split_ifs at happend
    exact Or.inl ⟨message, rfl, (Option.some.inj happend).symm⟩
  | poll answer =>
    cases answer with
    | none => exact Or.inr (Or.inr ⟨rfl, (Option.some.inj hstep).symm⟩)
    | some o => exact Or.inr (Or.inl ⟨o, rfl, (Option.some.inj hstep).symm⟩)

/-! ### What holds in every run -/

/-- The rows are named by their positions, `n` of them before the start; what was delivered is of
the table, once, and not later than the poller stands; nothing later is in the table when the poller
is up to date. -/
structure Inv (n : ℕ) (start : ℤ) (s : JournalPoller) : Prop where
  ids : s.rows.map JournalRow.id = List.range s.rows.length
  old : n ≤ s.rows.length
  known : ∀ row ∈ s.delivered, row ∈ s.rows ∧ row.timestamp ≤ s.lastTimestamp
  nodup : (s.delivered.map JournalRow.id).Nodup
  started : start ≤ s.lastTimestamp
  seen : s.upToDate = true → ∀ row ∈ s.rows, row.timestamp ≤ s.lastTimestamp

theorem inv_new (old : List JournalMessage) (start : ℤ) : (new old start).Inv old.length start := by
  constructor
  · unfold new
    apply List.ext_getElem
    · simp
    · intro i h₁ h₂
      simp
  · unfold new
    rw [List.length_mapIdx]
  · intro row hrow
    exact absurd hrow List.not_mem_nil
  · exact List.nodup_nil
  · exact le_refl start
  · intro h
    cases h

namespace Inv

/-- A row is known by its name. -/
theorem eq_of_id (h : s.Inv n start) {row row' : JournalRow} (hrow : row ∈ s.rows)
    (hrow' : row' ∈ s.rows) (hid : row.id = row'.id) : row = row' := by
  have hnodup : (s.rows.map JournalRow.id).Nodup := by
    rw [h.ids]
    exact List.nodup_range
  exact List.inj_on_of_nodup_map hnodup hrow hrow' hid

/-- A new row has a new name. -/
theorem id_lt (h : s.Inv n start) {row : JournalRow} (hrow : row ∈ s.rows) :
    row.id < s.rows.length := by
  have hmem := List.mem_map_of_mem (f := JournalRow.id) hrow
  rw [h.ids] at hmem
  exact List.mem_range.mp hmem

/-- The rows of an answer, and those beyond its limit, are different ones. -/
theorem nodup_sort_waiting (h : s.Inv n start) (o : RowOrder (· ≤ ·)) :
    ((o.sort s.waiting).map JournalRow.id).Nodup := by
  have hperm : ((o.sort s.waiting).map JournalRow.id).Perm (s.waiting.map JournalRow.id) :=
    (o.perm s.waiting).map _
  have hsublist : (s.waiting.map JournalRow.id).Sublist (s.rows.map JournalRow.id) :=
    List.filter_sublist.map _
  rw [h.ids] at hsublist
  exact hperm.nodup_iff.mpr (hsublist.nodup List.nodup_range)

theorem append (h : s.Inv n start) (message : JournalMessage) :
    Inv n start { s with rows := s.rows ++ [⟨s.rows.length, message⟩], upToDate := false } := by
  constructor
  · rw [List.map_append, h.ids, List.length_append, List.length_singleton, List.range_succ]
    rfl
  · rw [List.length_append]
    exact h.old.trans (Nat.le_add_right _ _)
  · intro row hrow
    obtain ⟨hmem, hle⟩ := h.known row hrow
    exact ⟨List.mem_append_left _ hmem, hle⟩
  · exact h.nodup
  · exact h.started
  · intro hfalse
    cases hfalse

theorem poll (h : s.Inv n start) (o : RowOrder (· ≤ ·)) (limit : ℤ) :
    (s.poll (getNewMessages o s.rows s.lastTimestamp limit) limit).Inv n start := by
  obtain ⟨hrows, hdelivered, hupToDate, hle, hlatest, -⟩ :=
    s.poll_spec (getNewMessages o s.rows s.lastTimestamp limit) limit
  constructor
  · rw [hrows]
    exact h.ids
  · rw [hrows]
    exact h.old
  · intro row hrow
    rw [hdelivered] at hrow
    rw [hrows]
    rcases List.mem_append.mp hrow with hrow | hrow
    · obtain ⟨hmem, hbefore⟩ := h.known row hrow
      exact ⟨hmem, hbefore.trans hle⟩
    · exact ⟨(mem_getNewMessages hrow).1, hlatest row hrow⟩
  · rw [hdelivered, List.map_append]
    refine List.nodup_append'.mpr ⟨h.nodup, ?_, ?_⟩
    · have hsublist : ((getNewMessages o s.rows s.lastTimestamp limit).map JournalRow.id).Sublist
          ((o.sort s.waiting).map JournalRow.id) := (List.take_sublist _ _).map _
      exact hsublist.nodup (h.nodup_sort_waiting o)
    · intro id hid hid'
      obtain ⟨row, hrow, rfl⟩ := List.mem_map.mp hid
      obtain ⟨row', hrow', heq⟩ := List.mem_map.mp hid'
      obtain ⟨hmem, hbefore⟩ := h.known row hrow
      obtain ⟨hmem', hafter⟩ := mem_getNewMessages hrow'
      have hsame := h.eq_of_id hmem' hmem heq
      rw [hsame] at hafter
      omega
  · exact h.started.trans hle
  · intro hlength row hrow
    rw [hupToDate] at hlength
    rw [hrows] at hrow
    by_cases hbefore : row.timestamp ≤ s.lastTimestamp
    · exact hbefore.trans hle
    · exact hlatest row (mem_getNewMessages_of_length_lt (of_decide_eq_true hlength) hrow
        (by omega))

/-- Every step keeps the invariant. -/
theorem step (h : s.Inv n start) {a : JournalAction} (hstep : s.step limit a = some t) :
    t.Inv n start := by
  obtain ⟨message, -, rfl⟩ | ⟨o, -, rfl⟩ | ⟨-, rfl⟩ := step_cases hstep
  · exact h.append message
  · exact h.poll o limit
  · exact h

end Inv

/-! ### Rows that are skipped -/

/-- No new row was passed without being delivered. -/
def SkipsNone (n : ℕ) (start : ℤ) (s : JournalPoller) : Prop :=
  ∀ row ∈ s.rows, n ≤ row.id → start < row.timestamp → row.timestamp ≤ s.lastTimestamp →
    row ∈ s.delivered

/-- **When the poller is up to date** every new row was delivered once, unless one was passed. -/
theorem Inv.deliversOnce_iff_skipsNone (h : s.Inv n start) (hupToDate : s.upToDate = true) :
    s.DeliversOnce n start ↔ s.SkipsNone n start := by
  constructor
  · intro honce row hrow hnew hlater _
    have hpos : 0 < s.delivered.countP (fun d => d.id = row.id) := by
      rw [honce row hrow hnew hlater]
      exact Nat.one_pos
    obtain ⟨d, hd, hid⟩ := List.countP_pos_iff.mp hpos
    rw [← h.eq_of_id (h.known d hd).1 hrow (of_decide_eq_true hid)]
    exact hd
  · intro hnone row hrow hnew hlater
    have hmem := hnone row hrow hnew hlater (h.seen hupToDate row hrow)
    have hcount := List.count_eq_one_of_mem h.nodup (List.mem_map_of_mem (f := JournalRow.id) hmem)
    rw [List.count_eq_countP, List.countP_map] at hcount
    rw [← hcount]
    apply List.countP_congr
    intro d _
    simp

/-- Whatever is passed by a step, and was not passed before, is passed by a tie. -/
theorem SkipsNone.step {a : JournalAction} (hnone : s.SkipsNone n start)
    (htie : s.NoTie n start limit a) (hstep : s.step limit a = some t) : t.SkipsNone n start := by
  obtain ⟨message, rfl, rfl⟩ | ⟨o, rfl, rfl⟩ | ⟨-, rfl⟩ := step_cases hstep
  · intro row hrow hnew hlater hpassed
    rcases List.mem_append.mp hrow with hrow | hrow
    · exact hnone row hrow hnew hlater hpassed
    · rw [List.mem_singleton.mp hrow] at hlater hpassed
      have hafter : s.lastTimestamp < message.timestamp := htie hlater
      exact absurd hpassed (Int.not_le.mpr hafter)
  · obtain ⟨hrows, hdelivered, -, -, -, hstands⟩ :=
      s.poll_spec (getNewMessages o s.rows s.lastTimestamp limit) limit
    intro row hrow hnew hlater hpassed
    rw [hrows] at hrow
    rw [hdelivered]
    by_cases hbefore : row.timestamp ≤ s.lastTimestamp
    · exact List.mem_append_left _ (hnone row hrow hnew hlater hbefore)
    · rcases mem_getNewMessages_or_drop o limit hrow (Int.not_le.mp hbefore) with hreturned | hcut
      · exact List.mem_append_right _ hreturned
      · -- the poller would stand at a row that was returned, of the same timestamp
        rcases hstands with hstands | ⟨last, hlast, hstands⟩
        · omega
        · have hle := le_of_mem_drop hlast hcut
          have hne : last.timestamp ≠ row.timestamp := htie last hlast row hcut hnew
          omega
  · exact hnone

/-- A tie makes the poller pass a new row. -/
theorem Inv.not_skipsNone_step (h : s.Inv n start) {a : JournalAction}
    (htie : ¬ s.NoTie n start limit a) (hstep : s.step limit a = some t) :
    ¬ t.SkipsNone n start := by
  intro hnone
  apply htie
  obtain ⟨message, rfl, rfl⟩ | ⟨o, rfl, rfl⟩ | ⟨rfl, -⟩ := step_cases hstep
  · intro hlater
    by_contra hpassed
    have hmem := hnone ⟨s.rows.length, message⟩
      (List.mem_append_right _ (List.mem_singleton_self _)) h.old hlater (Int.not_lt.mp hpassed)
    have hlt := h.id_lt (h.known _ hmem).1
    exact absurd hlt (Nat.lt_irrefl _)
  · obtain ⟨hrows, hdelivered, -, -, hlatest, -⟩ :=
      s.poll_spec (getNewMessages o s.rows s.lastTimestamp limit) limit
    intro row hrow row' hrow' hnew heq
    have hwaiting := (o.perm s.waiting).mem_iff.mp (List.mem_of_mem_drop hrow')
    obtain ⟨hmem, hafter⟩ := List.mem_filter.mp hwaiting
    have hafter : s.lastTimestamp < row'.timestamp := of_decide_eq_true hafter
    have hstarted := h.started
    have hpassed := hlatest row hrow
    rw [heq] at hpassed
    rw [← hrows] at hmem
    have hdone := hnone row' hmem hnew (by omega) hpassed
    rw [hdelivered] at hdone
    rcases List.mem_append.mp hdone with hdone | hdone
    · have hbefore := (h.known row' hdone).2
      omega
    · -- it would be within the limit and beyond it
      have hnodup := h.nodup_sort_waiting o
      rw [← List.take_append_drop (rowLimit limit) (o.sort s.waiting), List.map_append] at hnodup
      exact (List.nodup_append'.mp hnodup).2.2 (List.mem_map_of_mem hdone)
        (List.mem_map_of_mem hrow')
  · trivial

/-- What was passed is never delivered. -/
theorem not_skipsNone_of_step {a : JournalAction} (hskips : ¬ s.SkipsNone n start)
    (hstep : s.step limit a = some t) : ¬ t.SkipsNone n start := by
  intro hnone
  apply hskips
  intro row hrow hnew hlater hpassed
  obtain ⟨message, -, rfl⟩ | ⟨o, -, rfl⟩ | ⟨-, rfl⟩ := step_cases hstep
  · exact hnone row (List.mem_append_left _ hrow) hnew hlater hpassed
  · obtain ⟨hrows, hdelivered, -, hle, -, -⟩ :=
      s.poll_spec (getNewMessages o s.rows s.lastTimestamp limit) limit
    have hrow' := hrow
    rw [← hrows] at hrow'
    have hdone := hnone row hrow' hnew hlater (hpassed.trans hle)
    rw [hdelivered] at hdone
    rcases List.mem_append.mp hdone with hdone | hdone
    · exact hdone
    · have hafter := (mem_getNewMessages hdone).2
      omega
  · exact hnone row hrow hnew hlater hpassed

/-! ### Every run -/

/-- **No row is ever delivered twice, and when the poller is up to date every new row was delivered
exactly once** if and only if no row was appended at the timestamp the poller stood at and no limit
fell between rows of one timestamp. -/
theorem deliversOnce_iff (old : List JournalMessage) (start limit : ℤ) {as : List JournalAction}
    {s : JournalPoller} (hrun : (journalMachine old start limit).run (.new old start) as = some s) :
    (∀ id, s.delivered.countP (fun d => d.id = id) ≤ 1) ∧
      (s.upToDate = true → (s.DeliversOnce old.length start ↔
        (journalMachine old start limit).EveryStep (NoTie old.length start limit) as)) := by
  have hinv : ∀ s a t, Inv old.length start s → (journalMachine old start limit).step s a = some t →
      Inv old.length start t := fun s a t h hstep => h.step hstep
  have hs : s.Inv old.length start := Machine.run_induction hinv hrun (inv_new old start)
  constructor
  · intro id
    have hcount := List.nodup_iff_count_le_one.mp hs.nodup id
    rw [List.count_eq_countP, List.countP_map] at hcount
    refine le_trans (le_of_eq ?_) hcount
    apply List.countP_congr
    intro d _
    simp
  · intro hupToDate
    rw [hs.deliversOnce_iff_skipsNone hupToDate]
    refine Machine.last_iff_everyStep (I := Inv old.length start)
      (P := SkipsNone old.length start) (inv_new old start) ?_ hinv ?_ ?_ ?_ hrun
    · intro row _ _ hlater hpassed
      exact absurd hpassed (Int.not_le.mpr hlater)
    · intro s a t _ hnone htie hstep
      exact hnone.step htie hstep
    · intro s a t h htie hstep
      exact h.not_skipsNone_step htie hstep
    · intro s a t _ hskips hstep
      exact not_skipsNone_of_step hskips hstep

/-- A row of the timestamp that was delivered last is a tie. -/
theorem not_everyStep_tieAfterPoll :
    ¬ (journalMachine [] 0 100).EveryStep (NoTie 0 0 100) tieAfterPoll := by
  have hrun : (journalMachine [] 0 100).run (.new [] 0) tieAfterPoll = some _ := rfl
  intro htie
  exact absurd (((deliversOnce_iff [] 0 100 hrun).2 rfl).mpr htie) (by decide)

end JournalPoller

end UnisetPanel
