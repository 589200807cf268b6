/-
  Which records does `Cleanup` keep?

  It deletes the rows that come first in `ORDER BY timestamp ASC`, as many as
  are too many.  The timestamps are texts, and their order is not that of the
  times: `...:36Z` comes after `...:36.5Z`.  So a record may be removed and an
  earlier one kept (`not_keepsNewest_halfSecond`).

  The products with 1.1 and 0.1 are taken here as exact rationals, rounded down
  (`cleanupExact`); where the floating-point ones of the code are the same
  numbers, so is the result (`cleanup_eq_cleanupExact`).

  Cleanup keeps the newest records exactly if no two records, an earlier one
  with the later text and a later one with the earlier text, stand on different
  sides of the cut (`keepsNewest_iff`); in whatever order rows of one text come,
  the cut is between the same texts.  So it does for a table in which no text is
  that of another time cut off (`keepsNewest_of_not_truncates`).
-/
import UnisetPanel.Recording.Table
import UnisetPanel.SortedCut

namespace UnisetPanel

/-- The row was made at this time. -/
def RecordingRow.MadeAt (row : RecordingRow) (time : UTCTime) : Prop := row.timestamp = time.format

theorem RecordingRow.MadeAt.unique {row : RecordingRow} {a b : UTCTime} (ha : row.MadeAt a)
    (hb : row.MadeAt b) : a = b :=
  UTCTime.format_injective (ha.symm.trans hb)

namespace RecordingTable

variable (t : RecordingTable) (q : OrderBy)

/-! ### The clean-up with exact numbers -/

/-- `Cleanup` with what `threshold` and `tenth` of the limit are. -/
def cleanupWith (maxRecords threshold tenth : ℤ) : RecordingTable :=
  let count : ℤ := t.rows.length
  if count ≤ threshold then t
  else
    let deleteCount := if count - maxRecords < tenth then tenth else count - maxRecords
    let ids := (limit deleteCount (q.sort t.rows)).map RecordingRow.id
    t.delete fun row => row.id ∈ ids

theorem cleanup_eq_cleanupWith (maxRecords : Int64) :
    t.cleanup q maxRecords = t.cleanupWith q maxRecords.toInt (cleanupThreshold maxRecords).toInt
      (cleanupTenth maxRecords).toInt := rfl

/-- The greatest integer that is not above 1.1 times the limit. -/
def exactThreshold (maxRecords : ℕ) : ℕ := 11 * maxRecords / 10

/-- The greatest integer that is not above a tenth of the limit. -/
def exactTenth (maxRecords : ℕ) : ℕ := maxRecords / 10

/-- `Cleanup` with exact products. -/
def cleanupExact (maxRecords : ℕ) : RecordingTable :=
  t.cleanupWith q maxRecords (exactThreshold maxRecords) (exactTenth maxRecords)

/-- **Where the products of the code are exact**, so is the clean-up. -/
theorem cleanup_eq_cleanupExact {maxRecords : Int64} {n : ℕ} (hn : maxRecords.toInt = n)
    (hthreshold : (cleanupThreshold maxRecords).toInt = exactThreshold n)
    (htenth : (cleanupTenth maxRecords).toInt = exactTenth n) :
    t.cleanup q maxRecords = t.cleanupExact q n := by
  rw [cleanup_eq_cleanupWith, hthreshold, htenth, hn, cleanupExact]

theorem cleanupExact_of_le {maxRecords : ℕ} (h : t.rows.length ≤ exactThreshold maxRecords) :
    t.cleanupExact q maxRecords = t :=
  if_pos (Int.ofNat_le.mpr h)

/-- The rows that go, and those that stay. -/
theorem cleanupExact_of_lt {maxRecords : ℕ} (h : exactThreshold maxRecords < t.rows.length) :
    t.cleanupExact q maxRecords = t.delete fun row =>
      row.id ∈ ((q.sort t.rows).take (t.rows.length - maxRecords)).map RecordingRow.id := by
  -- a tenth of the limit is less than what is above it
  have hle : maxRecords + exactTenth maxRecords ≤ exactThreshold maxRecords := by
    unfold exactThreshold exactTenth
    omega
  have hcount : ¬ ((t.rows.length : ℤ) ≤ (exactThreshold maxRecords : ℤ)) := by omega
  have htenth : ¬ ((t.rows.length : ℤ) - maxRecords < (exactTenth maxRecords : ℤ)) := by omega
  have hlimit : limit ((t.rows.length : ℤ) - maxRecords) (q.sort t.rows) =
      (q.sort t.rows).take (t.rows.length - maxRecords) := by
    unfold limit
    rw [if_neg (by omega)]
    congr 1
    omega
  simp only [cleanupExact, cleanupWith, if_neg hcount, if_neg htenth, hlimit]

/-! ### The property -/

/-- **The newest are kept**: a table that is not too long stays as it is; of one that is too long
as many records are left as the limit says, and none that is removed is later than one that is
kept. -/
def KeepsNewest (maxRecords : ℕ) : Prop :=
  (t.rows.length ≤ exactThreshold maxRecords → t.cleanupExact q maxRecords = t) ∧
  (exactThreshold maxRecords < t.rows.length →
    (t.cleanupExact q maxRecords).rows.length = maxRecords ∧
    ∀ removed ∈ t.rows, removed ∉ (t.cleanupExact q maxRecords).rows →
      ∀ kept ∈ (t.cleanupExact q maxRecords).rows,
        ∀ a b, removed.MadeAt a → kept.MadeAt b → ¬ b < a)

/-- A later record whose text is among the first `n`, and an earlier one whose text is not: fewer
than `n` texts are before that of the later, and more than `n` not after that of the earlier. -/
def Straddles (n : ℕ) : Prop :=
  ∃ late ∈ t.rows, ∃ early ∈ t.rows, (∃ a b, late.MadeAt a ∧ early.MadeAt b ∧ b < a) ∧
    SortedCut.below RecordingRow.timestamp t.rows late.timestamp < n ∧
    n < SortedCut.upTo RecordingRow.timestamp t.rows early.timestamp

variable {t q}

/-- A record is before the cut or behind it. -/
theorem mem_cleanupExact_iff {maxRecords : ℕ} (h : exactThreshold maxRecords < t.rows.length)
    (row : RecordingRow) : row ∈ (t.cleanupExact q maxRecords).rows ↔
      row ∈ (q.sort t.rows).drop (t.rows.length - maxRecords) := by
  rw [t.cleanupExact_of_lt q h]
  exact (t.perm_delete_ids _ _ (by rw [List.take_append_drop]; exact q.perm t.rows)).mem_iff

theorem mem_removed_iff {maxRecords : ℕ} (h : exactThreshold maxRecords < t.rows.length)
    (row : RecordingRow) : row ∈ t.rows ∧ row ∉ (t.cleanupExact q maxRecords).rows ↔
      row ∈ (q.sort t.rows).take (t.rows.length - maxRecords) := by
  have hsort : ∀ row, row ∈ t.rows ↔ row ∈ (q.sort t.rows).take (t.rows.length - maxRecords) ∨
      row ∈ (q.sort t.rows).drop (t.rows.length - maxRecords) := by
    intro row
    rw [← List.mem_append, List.take_append_drop, (q.perm t.rows).mem_iff]
  -- no row stands twice, so none is on both sides
  have hnodup : (q.sort t.rows).Nodup :=
    (q.perm t.rows).nodup_iff.mpr (List.Nodup.of_map _ t.nodup)
  have hdisjoint := List.disjoint_take_drop hnodup (Nat.le_refl (t.rows.length - maxRecords))
  rw [mem_cleanupExact_iff h, hsort]
  constructor
  · rintro ⟨hrow | hrow, hnot⟩
    · exact hrow
    · exact absurd hrow hnot
  · intro hrow
    exact ⟨Or.inl hrow, fun hback => hdisjoint hrow hback⟩

/-- **As many are left as the limit says.** -/
theorem length_cleanupExact {maxRecords : ℕ} (h : exactThreshold maxRecords < t.rows.length) :
    (t.cleanupExact q maxRecords).rows.length = maxRecords := by
  have hmax : maxRecords ≤ exactThreshold maxRecords := by
    unfold exactThreshold
    omega
  rw [t.cleanupExact_of_lt q h, t.length_delete_ids _
    ((q.sort t.rows).drop (t.rows.length - maxRecords))
    (by rw [List.take_append_drop]; exact q.perm t.rows), List.length_drop,
    (q.perm t.rows).length_eq]
  omega

/-- The rows before a cut and those behind it, in the order of their texts. -/
theorem pairwise_take_append_drop (t : RecordingTable) (q : OrderBy) (n : ℕ) :
    ((q.sort t.rows).take n ++ (q.sort t.rows).drop n).Pairwise (·.timestamp ≤ ·.timestamp) := by
  rw [List.take_append_drop]
  exact q.pairwise t.rows

/-- **A record is removed and an earlier one kept** exactly if there is such a pair of texts across
the cut, whichever order rows of one text have. -/
theorem exists_removed_later_iff (t : RecordingTable) (q : OrderBy) (maxRecords : ℕ) :
    (∃ removed ∈ (q.sort t.rows).take (t.rows.length - maxRecords),
      ∃ kept ∈ (q.sort t.rows).drop (t.rows.length - maxRecords),
        ∃ a b, removed.MadeAt a ∧ kept.MadeAt b ∧ b < a) ↔
      t.Straddles (t.rows.length - maxRecords) := by
  have hlen : ((q.sort t.rows).take (t.rows.length - maxRecords)).length =
      t.rows.length - maxRecords := by
    rw [List.length_take, (q.perm t.rows).length_eq]
    omega
  have hsorted := pairwise_take_append_drop t q (t.rows.length - maxRecords)
  have hcut := SortedCut.exists_across_cut_iff (f := RecordingRow.timestamp) hsorted
    (fun x y => ∃ a b : UTCTime, x = a.format ∧ y = b.format ∧ b < a)
  rw [List.take_append_drop, hlen] at hcut
  refine hcut.trans ?_
  simp only [(q.perm t.rows).mem_iff, SortedCut.below_perm (q.perm t.rows),
    SortedCut.upTo_perm (q.perm t.rows)]
  rfl

/-- A table that is too long keeps the newest exactly if no pair is across the cut. -/
theorem keepsNewest_iff_of_lt {maxRecords : ℕ} (h : exactThreshold maxRecords < t.rows.length) :
    t.KeepsNewest q maxRecords ↔ ¬ t.Straddles (t.rows.length - maxRecords) := by
  rw [← exists_removed_later_iff t q]
  constructor
  · rintro ⟨-, hkeeps⟩ ⟨removed, hremoved, kept, hkept, a, b, ha, hb, hlt⟩
    obtain ⟨hrow, hnot⟩ := (mem_removed_iff h removed).mpr hremoved
    have hstays := (mem_cleanupExact_iff h kept).mpr hkept
    exact (hkeeps h).2 removed hrow hnot kept hstays a b ha hb hlt
  · intro hnone
    refine ⟨fun hle => absurd hle h.not_ge, fun _ => ⟨length_cleanupExact h, ?_⟩⟩
    intro removed hrow hnot kept hkept a b ha hb hlt
    exact hnone ⟨removed, (mem_removed_iff h removed).mp ⟨hrow, hnot⟩, kept,
      (mem_cleanupExact_iff h kept).mp hkept, a, b, ha, hb, hlt⟩

theorem keepsNewest_of_le {maxRecords : ℕ} (h : t.rows.length ≤ exactThreshold maxRecords) :
    t.KeepsNewest q maxRecords :=
  ⟨t.cleanupExact_of_le q, fun hlt => absurd hlt h.not_gt⟩

/-! ### Half a second -/

/-- A record made at `time`. -/
def recordMadeAt (time : UTCTime) : TimedRecord := ⟨"s", "o", "x", "1", time⟩

/-- Two records, half a second apart. -/
def halfSecond : RecordingTable :=
  (empty.insert (recordMadeAt ⟨2025, 1, 1, 0, 0, 36, 0, by decide⟩)).insert
    (recordMadeAt ⟨2025, 1, 1, 0, 0, 36, 500000000, by decide⟩)

/-- **The later record is removed**, where the limit is one. -/
theorem not_keepsNewest_halfSecond : ¬ ∀ q, halfSecond.KeepsNewest q 1 := by
  intro h
  refine (keepsNewest_iff_of_lt (q := .stable) (by decide)).mp (h .stable) ?_
  exact ⟨_, List.mem_of_getElem? (i := 1) rfl, _, List.mem_of_getElem? (i := 0) rfl,
    ⟨_, _, rfl, rfl, by decide⟩, by decide, by decide⟩

/-! ### The main theorem -/

/-- **Exactly when the newest are kept**: the table is not too long, or no two of its records stand
across the cut, the later with the text that comes first.  Rows of one text may come in any
order. -/
theorem keepsNewest_iff (t : RecordingTable) (q : OrderBy) (maxRecords : ℕ) :
    t.KeepsNewest q maxRecords ↔ t.rows.length ≤ exactThreshold maxRecords ∨
      ¬ t.Straddles (t.rows.length - maxRecords) := by
  rcases Nat.lt_or_ge (exactThreshold maxRecords) t.rows.length with hlt | hle
  · rw [keepsNewest_iff_of_lt hlt, or_iff_right hlt.not_ge]
  · exact iff_of_true (keepsNewest_of_le hle) (Or.inl hle)

/-- **A table of texts in the order of the times**: where the years have four digits, and no time is
another one with its fraction cut off, the newest are kept. -/
theorem keepsNewest_of_not_truncates (t : RecordingTable) (q : OrderBy) (maxRecords : ℕ)
    (hyears : ∀ row ∈ t.rows, ∀ a, row.MadeAt a → a.FourDigits)
    (hcut : ∀ row ∈ t.rows, ∀ row' ∈ t.rows, ∀ a b, row.MadeAt a → row'.MadeAt b →
      ¬ UTCTime.Truncates a b) : t.KeepsNewest q maxRecords := by
  rcases Nat.lt_or_ge (exactThreshold maxRecords) t.rows.length with hlt | hle
  · rw [keepsNewest_iff_of_lt hlt, ← exists_removed_later_iff t q]
    rintro ⟨removed, hremoved, kept, hkept, a, b, ha, hb, hba⟩
    have hrow := ((mem_removed_iff hlt removed).mpr hremoved).1
    have hkrow : kept ∈ t.rows :=
      (q.perm t.rows).mem_iff.mp (List.mem_of_mem_drop hkept)
    -- the rows are sorted by text, and these texts are in the order of the times
    have hsorted := pairwise_take_append_drop t q (t.rows.length - maxRecords)
    have hle := SortedCut.le_of_pairwise (f := RecordingRow.timestamp) hsorted hremoved hkept
    have htext : kept.timestamp < removed.timestamp := by
      rw [ha, hb,
        UTCTime.format_lt_of_fourDigits (hyears kept hkrow b hb) (hyears removed hrow a ha)]
      exact Or.inl ⟨hba, hcut kept hkrow removed hrow b a hb ha⟩
    exact absurd htext hle.not_gt
  · exact keepsNewest_of_le hle

end RecordingTable

end UnisetPanel
