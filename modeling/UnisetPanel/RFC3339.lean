/-
  `RFC3339` — dates and times in UTC, their RFC 3339 text with nanoseconds, and
  the order of these texts.

  A `UTCTime` is ordered by the nanosecond it names.  `format` writes it with a
  year of at least four digits and without the zeros at the end of the fraction,
  and leaves out a fraction that is zero.  `parse` reads the texts of the years
  0 to 9999 back (`parse_format`); of no year do two times have one text
  (`format_injective`).

  The order of the texts is not that of the times.  The `Z` after a fraction is
  greater than every digit and than the point, so a text with a shorter fraction
  comes after the texts whose fraction goes on from it (`Truncates`), and a year
  of five digits is compared by its first four.  `Inverted a b` are the pairs
  that this turns round, and `format_lt_format` and `format_le_format` give the
  order of the texts exactly.
-/
import UnisetPanel.DecimalText
import Mathlib.Order.Basic
import Mathlib.Algebra.Order.Ring.Int

namespace UnisetPanel

open DecimalText

/-! ### The calendar -/

/-- Whether a year has a 29 February. -/
def isLeap (year : ℤ) : Bool := year % 4 = 0 && (year % 100 ≠ 0 || year % 400 = 0)

/-- The days of a month. -/
def daysIn (year : ℤ) (month : ℕ) : ℕ :=
  if month = 2 then if isLeap year then 29 else 28
  else if month = 4 ∨ month = 6 ∨ month = 9 ∨ month = 11 then 30
  else 31

/-- What the fields of a date and time satisfy. -/
def ValidTime (year : ℤ) (month day hour minute second nanosecond : ℕ) : Prop :=
  (1 ≤ month ∧ month ≤ 12) ∧ (1 ≤ day ∧ day ≤ daysIn year month) ∧
    hour < 24 ∧ minute < 60 ∧ second < 60 ∧ nanosecond < 10 ^ 9

instance (year : ℤ) (month day hour minute second nanosecond : ℕ) :
    Decidable (ValidTime year month day hour minute second nanosecond) := by
  unfold ValidTime
  infer_instance

/-- A date and time in UTC. -/
@[ext] structure UTCTime where
  year : ℤ
  month : ℕ
  day : ℕ
  hour : ℕ
  minute : ℕ
  second : ℕ
  nanosecond : ℕ
  valid : ValidTime year month day hour minute second nanosecond
  deriving DecidableEq

/-- The days from year 0 to a year. -/
def daysBeforeYear (year : ℤ) : ℤ :=
  365 * year + (year + 3) / 4 - (year + 99) / 100 + (year + 399) / 400

/-- The days of a year. -/
def daysInYear (year : ℤ) : ℕ := if isLeap year then 366 else 365

/-- The days from the start of a year to a month. -/
def daysBeforeMonth (year : ℤ) : ℕ → ℕ
  | 0 => 0
  | 1 => 0
  | month + 2 => daysBeforeMonth year (month + 1) + daysIn year (month + 1)

theorem isLeap_eq_true (year : ℤ) :
    isLeap year = true ↔ year % 4 = 0 ∧ (year % 100 ≠ 0 ∨ year % 400 = 0) := by
  simp only [isLeap, Bool.and_eq_true, Bool.or_eq_true, decide_eq_true_iff]

theorem daysBeforeYear_succ (year : ℤ) :
    daysBeforeYear (year + 1) = daysBeforeYear year + daysInYear year := by
  unfold daysBeforeYear daysInYear
  have h := isLeap_eq_true year
  split_ifs with hleap
  · have := h.mp hleap
    omega
  · have := mt h.mpr hleap
    omega

theorem daysBeforeYear_add_le {x y : ℤ} (h : x < y) :
    daysBeforeYear x + daysInYear x ≤ daysBeforeYear y := by
  induction y, (show x + 1 ≤ y from h) using Int.leInduction with
  | base => rw [daysBeforeYear_succ]
  | succ y _ ih =>
    rw [daysBeforeYear_succ]
    exact (ih (by omega)).trans (Int.le_add_of_nonneg_right (Int.natCast_nonneg _))

theorem daysBeforeMonth_succ (year : ℤ) {m : ℕ} (hm : 1 ≤ m) :
    daysBeforeMonth year (m + 1) = daysBeforeMonth year m + daysIn year m := by
  obtain ⟨m, rfl⟩ := Nat.exists_eq_add_of_le' hm
  rfl

theorem daysBeforeMonth_add_le (year : ℤ) {m n : ℕ} (hm : 1 ≤ m) (h : m < n) :
    daysBeforeMonth year m + daysIn year m ≤ daysBeforeMonth year n := by
  induction n, (show m + 1 ≤ n from h) using Nat.le_induction with
  | base => rw [daysBeforeMonth_succ year hm]
  | succ n hn ih =>
    rw [daysBeforeMonth_succ year (by omega)]
    exact (ih (by omega)).trans (Nat.le_add_right _ _)

theorem daysBeforeMonth_thirteen (year : ℤ) : daysBeforeMonth year 13 = daysInYear year := by
  unfold daysInYear
  simp only [daysBeforeMonth, daysIn]
  cases isLeap year <;> rfl

/-- Numbers made of a block and an offset in it are ordered by the blocks, then by the offsets. -/
theorem block_lt_iff {ι : Type*} [LinearOrder ι] {f : ι → ℤ} {w : ι → ℕ} {x y : ι} {r s : ℕ}
    (hxy : x < y → f x + w x ≤ f y) (hyx : y < x → f y + w y ≤ f x) (hr : r < w x) (hs : s < w y) :
    f x + r < f y + s ↔ x < y ∨ x = y ∧ r < s := by
  rcases lt_trichotomy x y with h | rfl | h
  · have := hxy h
    simp only [h, true_or, iff_true]
    omega
  · simp only [lt_irrefl, true_and, false_or]
    omega
  · have := hyx h
    simp only [h.not_gt, h.ne', false_and, or_false, iff_false]
    omega

namespace UTCTime

/-- The day, counted from the first of January of year 0. -/
def toDays (t : UTCTime) : ℤ :=
  daysBeforeYear t.year + (daysBeforeMonth t.year t.month + (t.day - 1) : ℕ)

/-- The second, counted from the start of year 0. -/
def toSeconds (t : UTCTime) : ℤ := ((t.toDays * 24 + t.hour) * 60 + t.minute) * 60 + t.second

/-- The nanosecond, counted from the start of year 0. -/
def toNanoseconds (t : UTCTime) : ℤ := t.toSeconds * 10 ^ 9 + t.nanosecond

variable {a b : UTCTime}

theorem offset_lt_daysIn (t : UTCTime) : t.day - 1 < daysIn t.year t.month := by
  have := t.valid.2.1
  omega

theorem offset_lt_daysInYear (t : UTCTime) :
    daysBeforeMonth t.year t.month + (t.day - 1) < daysInYear t.year := by
  have hday := t.offset_lt_daysIn
  have hmonth := daysBeforeMonth_add_le t.year t.valid.1.1 (Nat.lt_succ_of_le t.valid.1.2)
  rw [daysBeforeMonth_thirteen] at hmonth
  omega

theorem toDays_lt_iff : a.toDays < b.toDays ↔ a.year < b.year ∨
    a.year = b.year ∧ (a.month < b.month ∨ a.month = b.month ∧ a.day < b.day) := by
  unfold toDays
  rw [block_lt_iff (w := daysInYear) daysBeforeYear_add_le daysBeforeYear_add_le
    a.offset_lt_daysInYear b.offset_lt_daysInYear]
  refine or_congr_right (and_congr_right fun hy => ?_)
  have ha := a.offset_lt_daysIn
  have hb := b.offset_lt_daysIn
  rw [hy] at ha ⊢
  have h := block_lt_iff (f := fun m => (daysBeforeMonth b.year m : ℤ)) (w := daysIn b.year)
    (fun h => by exact_mod_cast daysBeforeMonth_add_le b.year a.valid.1.1 h)
    (fun h => by exact_mod_cast daysBeforeMonth_add_le b.year b.valid.1.1 h) ha hb
  have ha' := a.valid.2.1
  have hb' := b.valid.2.1
  have hoff : a.day - 1 < b.day - 1 ↔ a.day < b.day := by omega
  rw [hoff] at h
  rw [← h]
  norm_cast

theorem toDays_eq_iff :
    a.toDays = b.toDays ↔ a.year = b.year ∧ a.month = b.month ∧ a.day = b.day := by
  have hab := toDays_lt_iff (a := a) (b := b)
  have hba := toDays_lt_iff (a := b) (b := a)
  omega

theorem toSeconds_lt_iff : a.toSeconds < b.toSeconds ↔ a.toDays < b.toDays ∨
    a.toDays = b.toDays ∧ (a.hour < b.hour ∨ a.hour = b.hour ∧
      (a.minute < b.minute ∨ a.minute = b.minute ∧ a.second < b.second)) := by
  obtain ⟨-, -, -, ha, ha', -⟩ := a.valid
  obtain ⟨-, -, -, hb, hb', -⟩ := b.valid
  have hah := a.valid.2.2.1
  have hbh := b.valid.2.2.1
  unfold toSeconds
  omega

theorem toSeconds_eq_iff : a.toSeconds = b.toSeconds ↔ a.toDays = b.toDays ∧ a.hour = b.hour ∧
    a.minute = b.minute ∧ a.second = b.second := by
  have hab := toSeconds_lt_iff (a := a) (b := b)
  have hba := toSeconds_lt_iff (a := b) (b := a)
  omega

theorem nanosecond_lt (t : UTCTime) : t.nanosecond < 10 ^ 9 := t.valid.2.2.2.2.2

theorem toNanoseconds_lt_iff : a.toNanoseconds < b.toNanoseconds ↔
    a.toSeconds < b.toSeconds ∨ a.toSeconds = b.toSeconds ∧ a.nanosecond < b.nanosecond := by
  have ha := a.nanosecond_lt
  have hb := b.nanosecond_lt
  unfold toNanoseconds
  omega

theorem toNanoseconds_injective : Function.Injective toNanoseconds := by
  intro a b h
  have hab := toNanoseconds_lt_iff (a := a) (b := b)
  have hba := toNanoseconds_lt_iff (a := b) (b := a)
  have hs : a.toSeconds = b.toSeconds := by omega
  have hn : a.nanosecond = b.nanosecond := by omega
  obtain ⟨hd, hh, hm, hs⟩ := toSeconds_eq_iff.mp hs
  obtain ⟨hy, hmo, hday⟩ := toDays_eq_iff.mp hd
  exact UTCTime.ext hy hmo hday hh hm hs hn

instance : LinearOrder UTCTime := LinearOrder.lift' toNanoseconds toNanoseconds_injective

theorem lt_iff : a < b ↔
    a.toSeconds < b.toSeconds ∨ a.toSeconds = b.toSeconds ∧ a.nanosecond < b.nanosecond :=
  toNanoseconds_lt_iff

theorem lt_of_year_lt (h : a.year < b.year) : a < b :=
  lt_iff.mpr (.inl (toSeconds_lt_iff.mpr (.inl (toDays_lt_iff.mpr (.inl h)))))

end UTCTime

/-! ### The text -/

/-- A number with at least `w` digits. -/
def atLeast (w n : ℕ) : List Char := if n < 10 ^ w then pad w n else Nat.toDigits 10 n

/-- A year with at least four digits. -/
def yearText (year : ℤ) : List Char :=
  if year < 0 then '-' :: atLeast 4 year.natAbs else atLeast 4 year.natAbs

/-- The fraction of a second, with nine digits less the zeros at the end. -/
def fraction (nanosecond : ℕ) : List Char :=
  if nanosecond = 0 then [] else '.' :: trimZeros (pad 9 nanosecond)

namespace UTCTime

/-- The date and time up to the second, then `u`. -/
def stem (t : UTCTime) (u : List Char) : List Char :=
  yearText t.year ++ '-' :: (pad 2 t.month ++ '-' :: (pad 2 t.day ++ 'T' ::
    (pad 2 t.hour ++ ':' :: (pad 2 t.minute ++ ':' :: (pad 2 t.second ++ u)))))

/-- The text of a time, as `time.RFC3339Nano` lays it out. -/
def format (t : UTCTime) : List Char := t.stem (fraction t.nanosecond ++ ['Z'])

end UTCTime

/-! ### Reading it back -/

/-- `w` digits. -/
def digits (w : ℕ) (s : List Char) : Option (ℕ × List Char) :=
  if (s.take w).length = w ∧ (s.take w).all Char.isDigit then
    some (Nat.ofDigitChars 10 (s.take w) 0, s.drop w)
  else none

/-- The letter `c`. -/
def letter (c : Char) : List Char → Option (List Char)
  | [] => none
  | a :: s => if a = c then some s else none

/-- A point and at most nine digits, or nothing. -/
def readFraction : List Char → Option (ℕ × List Char)
  | [] => some (0, [])
  | c :: s =>
    if c ≠ '.' then some (0, c :: s)
    else
      let ds := s.takeWhile Char.isDigit
      if ds = [] ∨ 9 < ds.length then none
      else some (Nat.ofDigitChars 10 ds 0 * 10 ^ (9 - ds.length), s.dropWhile Char.isDigit)

/-- The time a text stands for; the year has four digits. -/
def UTCTime.parse (s : List Char) : Option UTCTime := do
  let (year, s) ← digits 4 s
  let s ← letter '-' s
  let (month, s) ← digits 2 s
  let s ← letter '-' s
  let (day, s) ← digits 2 s
  let s ← letter 'T' s
  let (hour, s) ← digits 2 s
  let s ← letter ':' s
  let (minute, s) ← digits 2 s
  let s ← letter ':' s
  let (second, s) ← digits 2 s
  let (nanosecond, s) ← readFraction s
  let s ← letter 'Z' s
  if h : s = [] ∧ ValidTime year month day hour minute second nanosecond then
    some ⟨year, month, day, hour, minute, second, nanosecond, h.2⟩
  else none

variable {α : Type}

theorem digits_bind {w n : ℕ} (h : n < 10 ^ w) (s : List Char) (f : ℕ × List Char → Option α) :
    (digits w (pad w n ++ s) >>= f) = f (n, s) := by
  have hdigits : (pad w n).all Char.isDigit := List.all_eq_true.mpr fun c hc => isDigit_of_mem_pad hc
  rw [digits, List.take_left' (length_pad w n), List.drop_left' (length_pad w n),
    if_pos ⟨length_pad w n, hdigits⟩, ofDigitChars_pad h]
  rfl

theorem letter_bind (c : Char) (s : List Char) (f : List Char → Option α) :
    (letter c (c :: s) >>= f) = f s := by
  rw [letter, if_pos rfl]
  rfl

theorem isDigit_of_mem_trimZeros_pad {w n : ℕ} {c : Char} (h : c ∈ trimZeros (pad w n)) :
    c.isDigit = true := isDigit_of_mem_pad (mem_of_mem_trimZeros h)

theorem trimZeros_pad_ne_nil {w n : ℕ} (h : n < 10 ^ w) (hn : n ≠ 0) : trimZeros (pad w n) ≠ [] := by
  intro htrim
  rw [trimZeros_eq_nil, length_pad, ← pad_mul_pow w 0, Nat.zero_mul,
    pad_inj h (Nat.pow_pos (Nat.succ_pos 9))] at htrim
  exact hn htrim

/-- The digits that are left, and as many zeros as are missing, are the number. -/
theorem ofDigitChars_trimZeros_pad {w n : ℕ} (h : n < 10 ^ w) :
    (trimZeros (pad w n)).length ≤ w ∧
      Nat.ofDigitChars 10 (trimZeros (pad w n)) 0 * 10 ^ (w - (trimZeros (pad w n)).length) = n := by
  obtain ⟨k, hk⟩ := trimZeros_append_replicate (pad w n)
  have hlen : (trimZeros (pad w n)).length + k = w := by
    rw [← List.length_replicate (n := k) (a := '0'), ← List.length_append, ← hk, length_pad]
  have hvalue := ofDigitChars_pad h
  rw [hk, Nat.ofDigitChars_append, Nat.ofDigitChars_replicate_zero] at hvalue
  have hk' : w - (trimZeros (pad w n)).length = k := by omega
  refine ⟨by omega, ?_⟩
  rw [hk', Nat.mul_comm]
  exact hvalue

theorem readFraction_bind {n : ℕ} (h : n < 10 ^ 9) (s : List Char)
    (f : ℕ × List Char → Option α) :
    (readFraction (fraction n ++ 'Z' :: s) >>= f) = f (n, 'Z' :: s) := by
  unfold fraction
  split_ifs with hn
  · rw [hn]
    rfl
  · have htake : (trimZeros (pad 9 n) ++ 'Z' :: s).takeWhile Char.isDigit = trimZeros (pad 9 n) := by
      rw [List.takeWhile_append_of_pos fun c hc => isDigit_of_mem_trimZeros_pad hc]
      exact List.append_nil _
    have hdrop : (trimZeros (pad 9 n) ++ 'Z' :: s).dropWhile Char.isDigit = 'Z' :: s := by
      rw [List.dropWhile_append_of_pos fun c hc => isDigit_of_mem_trimZeros_pad hc]
      rfl
    obtain ⟨hlen, hvalue⟩ := ofDigitChars_trimZeros_pad h
    have hfew : ¬ (trimZeros (pad 9 n) = [] ∨ 9 < (trimZeros (pad 9 n)).length) :=
      not_or.mpr ⟨trimZeros_pad_ne_nil h hn, hlen.not_gt⟩
    simp only [List.cons_append, readFraction, htake, hdrop, ne_eq, not_true_eq_false, if_false,
      if_neg hfew, hvalue]
    rfl

namespace UTCTime

/-- The year is one that RFC 3339 can write. -/
def FourDigits (t : UTCTime) : Prop := 0 ≤ t.year ∧ t.year ≤ 9999

instance (t : UTCTime) : Decidable t.FourDigits := inferInstanceAs (Decidable (_ ∧ _))

variable {a b t : UTCTime}

theorem FourDigits.natAbs_lt (h : t.FourDigits) : t.year.natAbs < 10 ^ 4 := by
  have := h.1
  have := h.2
  omega

theorem FourDigits.yearText (h : t.FourDigits) : yearText t.year = pad 4 t.year.natAbs := by
  rw [UnisetPanel.yearText, if_neg h.1.not_gt, atLeast, if_pos h.natAbs_lt]

theorem month_lt (t : UTCTime) : t.month < 10 ^ 2 :=
  t.valid.1.2.trans_lt (by decide)

theorem day_lt (t : UTCTime) : t.day < 10 ^ 2 := by
  have hday := t.valid.2.1.2
  have hin : daysIn t.year t.month ≤ 31 := by
    unfold daysIn
    split_ifs <;> decide
  omega

theorem hour_lt (t : UTCTime) : t.hour < 10 ^ 2 := t.valid.2.2.1.trans (by decide)

theorem minute_lt (t : UTCTime) : t.minute < 10 ^ 2 := t.valid.2.2.2.1.trans (by decide)

theorem second_lt (t : UTCTime) : t.second < 10 ^ 2 := t.valid.2.2.2.2.1.trans (by decide)

/-- **Round trip**: the text of a time with a year of four digits is read as that time. -/
theorem parse_format (h : t.FourDigits) : parse t.format = some t := by
  have hyear : ((t.year.natAbs : ℕ) : ℤ) = t.year := Int.natAbs_of_nonneg h.1
  have hvalid := t.valid
  rw [← hyear] at hvalid
  unfold parse format stem
  rw [h.yearText]
  simp only [↓digits_bind h.natAbs_lt, ↓digits_bind t.month_lt, ↓digits_bind t.day_lt,
    ↓digits_bind t.hour_lt, ↓digits_bind t.minute_lt, ↓digits_bind t.second_lt, ↓letter_bind,
    ↓readFraction_bind t.nanosecond_lt, ↓true_and, ↓dif_pos hvalid]
  exact congrArg some (UTCTime.ext hyear rfl rfl rfl rfl rfl rfl)

end UTCTime

/-! ### The order of the fractions -/

theorem lt_of_mem_fraction {n : ℕ} {c : Char} (h : c ∈ fraction n) : c < 'Z' := by
  unfold fraction at h
  split_ifs at h
  · cases h
  · rcases List.mem_cons.mp h with rfl | h
    · decide
    · exact (le_of_isDigit (isDigit_of_mem_trimZeros_pad h)).2.trans_lt (by decide)

variable {m n : ℕ}

theorem fraction_lt_fraction (hm : m < 10 ^ 9) (hn : n < 10 ^ 9) :
    fraction m < fraction n ↔ m < n := by
  have htrim : trimZeros (pad 9 m) < trimZeros (pad 9 n) ↔ m < n :=
    (trimZeros_lt_trimZeros (by rw [length_pad, length_pad])
      (fun c hc => (le_of_isDigit (isDigit_of_mem_pad hc)).1)
      (fun c hc => (le_of_isDigit (isDigit_of_mem_pad hc)).1)).trans (pad_lt_pad hm hn)
  unfold fraction
  split_ifs with h h' h'
  · simp [h, h']
  · simp [h, Nat.pos_of_ne_zero h']
  · simp [h']
  · simp [htrim]

/-- The fraction of `m` begins that of `n` if `m` is `n` cut off after some digit. -/
theorem fraction_prefix_iff (hm : m < 10 ^ 9) (hn : n < 10 ^ 9) :
    fraction m <+: fraction n ↔ ∃ k ≤ 9, m = n / 10 ^ k * 10 ^ k := by
  unfold fraction
  split_ifs with h h' h'
  · refine ⟨fun _ => ⟨0, Nat.zero_le 9, ?_⟩, fun _ => List.prefix_rfl⟩
    rw [h, h', Nat.zero_div, Nat.zero_mul]
  · refine ⟨fun _ => ⟨9, le_rfl, ?_⟩, fun _ => List.nil_prefix⟩
    rw [h, Nat.div_eq_of_lt hn, Nat.zero_mul]
  · refine ⟨fun hpre => absurd (List.prefix_nil.mp hpre) (by nofun), ?_⟩
    rintro ⟨k, -, hk⟩
    rw [h', Nat.zero_div, Nat.zero_mul] at hk
    exact absurd hk h
  · rw [List.cons_prefix_cons, trimZeros_pad_prefix_iff hm hn]
    exact and_iff_right rfl

theorem fraction_inj (hm : m < 10 ^ 9) (hn : n < 10 ^ 9) : fraction m = fraction n ↔ m = n := by
  refine ⟨fun h => ?_, congrArg _⟩
  have hmn := mt (fraction_lt_fraction hm hn).mpr (h ▸ lt_irrefl _)
  have hnm := mt (fraction_lt_fraction hn hm).mpr (h ▸ lt_irrefl _)
  omega

/-! ### Years of more digits -/

/-- The first four digits of a number that has as many. -/
def leadingFour (n : ℕ) : ℕ := if n < 10 ^ 4 then n else leadingFour (n / 10)

theorem leadingFour_lt (n : ℕ) : leadingFour n < 10 ^ 4 := by
  induction n using leadingFour.induct with
  | case1 n h =>
    rw [leadingFour, if_pos h]
    exact h
  | case2 n h ih =>
    rw [leadingFour, if_neg h]
    exact ih

theorem toDigits_eq_leadingFour {n : ℕ} (h : 10 ^ 4 ≤ n) :
    ∃ c s, c.isDigit = true ∧ Nat.toDigits 10 n = pad 4 (leadingFour n) ++ c :: s := by
  induction n using leadingFour.induct with
  | case1 n hn => exact absurd h hn.not_ge
  | case2 n hn ih =>
    have hlast : (Nat.digitChar (n % 10)).isDigit = true := by
      rw [Nat.isDigit_digitChar, decide_eq_true_iff]
      exact Nat.mod_lt n (Nat.succ_pos 9)
    rw [leadingFour, if_neg hn,
      Nat.toDigits_of_base_le (by decide) ((show 10 ≤ 10 ^ 4 by decide).trans h)]
    by_cases hq : n / 10 < 10 ^ 4
    · refine ⟨_, [], hlast, ?_⟩
      rw [leadingFour, if_pos hq, toDigits_eq_pad (w := 3) (by omega) hq]
    · obtain ⟨c, s, hc, hs⟩ := ih (Nat.not_lt.mp hq)
      exact ⟨c, s ++ [Nat.digitChar (n % 10)], hc, by rw [hs, List.append_assoc]; rfl⟩

namespace UTCTime

/-! ### The order of the texts -/

/-- `a` is `b` with its fraction of a second cut off after some digit. -/
def Truncates (a b : UTCTime) : Prop :=
  a.toSeconds = b.toSeconds ∧ a.nanosecond < b.nanosecond ∧
    ∃ k ≤ 9, a.nanosecond = b.nanosecond / 10 ^ k * 10 ^ k

instance (a b : UTCTime) : Decidable (Truncates a b) := inferInstanceAs (Decidable (_ ∧ _))

variable {a b : UTCTime}

theorem Truncates.lt (h : Truncates a b) : a < b := lt_iff.mpr (.inr ⟨h.1, h.2.1⟩)

theorem fraction_append_lt_iff (a b : UTCTime) :
    fraction a.nanosecond ++ ['Z'] < fraction b.nanosecond ++ ['Z'] ↔
      (a.nanosecond < b.nanosecond ∧ ¬ ∃ k ≤ 9, a.nanosecond = b.nanosecond / 10 ^ k * 10 ^ k) ∨
        (b.nanosecond < a.nanosecond ∧ ∃ k ≤ 9, b.nanosecond = a.nanosecond / 10 ^ k * 10 ^ k) := by
  rw [append_terminator_lt (fun _ => lt_of_mem_fraction) (fun _ => lt_of_mem_fraction),
    fraction_lt_fraction a.nanosecond_lt b.nanosecond_lt,
    fraction_prefix_iff a.nanosecond_lt b.nanosecond_lt,
    fraction_prefix_iff b.nanosecond_lt a.nanosecond_lt, ne_eq,
    fraction_inj b.nanosecond_lt a.nanosecond_lt]
  refine or_congr_right ⟨fun ⟨hcut, hne⟩ => ⟨?_, hcut⟩, fun ⟨hlt, hcut⟩ => ⟨hcut, hlt.ne⟩⟩
  -- what is left after the cut is at most the whole
  obtain ⟨k, -, hk⟩ := hcut
  exact lt_of_le_of_ne (hk ▸ Nat.div_mul_le_self a.nanosecond (10 ^ k)) hne

/-- Up to the second, the order of the texts is that of the times. -/
theorem stem_lt_stem (ha : a.FourDigits) (hb : b.FourDigits) (u v : List Char) :
    a.stem u < b.stem v ↔
      a.toSeconds < b.toSeconds ∨ a.toSeconds = b.toSeconds ∧ u < v := by
  have hlt : a.year.natAbs < b.year.natAbs ↔ a.year < b.year := by
    have := ha.1
    have := hb.1
    omega
  have heq : a.year.natAbs = b.year.natAbs ↔ a.year = b.year := by
    have := ha.1
    have := hb.1
    omega
  unfold stem
  rw [ha.yearText, hb.yearText, pad_append_lt_iff ha.natAbs_lt hb.natAbs_lt, hlt, heq]
  simp only [List.cons_lt_cons_iff, lt_irrefl, false_or, true_and,
    pad_append_lt_iff a.month_lt b.month_lt, pad_append_lt_iff a.day_lt b.day_lt,
    pad_append_lt_iff a.hour_lt b.hour_lt, pad_append_lt_iff a.minute_lt b.minute_lt,
    pad_append_lt_iff a.second_lt b.second_lt]
  -- both sides compare the fields one after the other
  rw [toSeconds_lt_iff, toSeconds_eq_iff, toDays_lt_iff, toDays_eq_iff]
  simp only [and_or_left, or_assoc, and_assoc]

theorem format_lt_of_fourDigits (ha : a.FourDigits) (hb : b.FourDigits) :
    a.format < b.format ↔ (a < b ∧ ¬ Truncates a b) ∨ Truncates b a := by
  unfold format
  rw [stem_lt_stem ha hb, fraction_append_lt_iff, lt_iff, Truncates, Truncates]
  rcases lt_trichotomy a.toSeconds b.toSeconds with h | h | h
  · simp [h, h.ne, h.ne']
  · simp only [h, lt_irrefl, true_and, false_or]
    exact or_congr_left (and_congr_right fun hlt => not_congr (and_iff_right hlt).symm)
  · simp [h.not_gt, h.ne, h.ne']

/-- `a` is before `b`, and the text of `b` before that of `a`; `a` has a year of four digits. -/
def Inverted (a b : UTCTime) : Prop :=
  Truncates a b ∨ (9999 < b.year ∧ (leadingFour b.year.natAbs : ℤ) < a.year)

instance (a b : UTCTime) : Decidable (Inverted a b) := inferInstanceAs (Decidable (_ ∨ _))

theorem Inverted.lt (h : Inverted a b) (ha : a.FourDigits) : a < b := by
  rcases h with h | ⟨hb, -⟩
  · exact h.lt
  · exact lt_of_year_lt (ha.2.trans_lt hb)

theorem not_inverted_of_le (h : b ≤ a) (hb : b.FourDigits ∨ a.FourDigits) : ¬ Inverted a b := by
  rintro (h' | ⟨hyear, hlead⟩)
  · exact h.not_gt h'.lt
  · rcases hb with hb | ha
    · exact absurd hb.2 hyear.not_ge
    · exact h.not_gt (lt_of_year_lt (ha.2.trans_lt hyear))

theorem inverted_iff_truncates (hb : b.FourDigits) : Inverted a b ↔ Truncates a b :=
  or_iff_left fun h => h.1.not_ge hb.2

/-- **The order of the texts**, of a year of four digits and any other. -/
theorem format_lt_format (ha : a.FourDigits) :
    (a.format < b.format ↔ (a < b ∧ ¬ Inverted a b) ∨ Inverted b a) ∧
      (b.format < a.format ↔ (b < a ∧ ¬ Inverted b a) ∨ Inverted a b) := by
  rw [inverted_iff_truncates (a := b) ha]
  by_cases hb : b.FourDigits
  · rw [inverted_iff_truncates hb]
    exact ⟨format_lt_of_fourDigits ha hb, format_lt_of_fourDigits hb ha⟩
  have hsame : ¬ Truncates b a := by
    intro h
    obtain ⟨hyear, -⟩ := toDays_eq_iff.mp (toSeconds_eq_iff.mp h.1).1
    exact hb (show 0 ≤ b.year ∧ b.year ≤ 9999 from hyear ▸ ha)
  have hlt {c : Char} (hc : c.isDigit = true) : '-' < c :=
    lt_of_lt_of_le (by decide) (le_of_isDigit hc).1
  rcases lt_or_ge b.year 0 with hneg | hpos
  · -- a minus sign comes before every digit
    have hba : b < a := lt_of_year_lt (hneg.trans_le ha.1)
    have htext : b.format < a.format := by
      obtain ⟨c, s, hc, hs⟩ := exists_pad_eq_cons 3 a.year.natAbs
      rw [format, format, stem, stem, ha.yearText, yearText, if_pos hneg, hs]
      exact List.cons_lt_cons_iff.mpr (.inl (hlt hc))
    have hinv : ¬ Inverted a b := not_inverted_of_le hba.le (.inr ha)
    exact ⟨iff_of_false htext.not_gt (not_or.mpr ⟨fun h => hba.not_gt h.1, hsame⟩),
      iff_of_true htext (.inl ⟨hba, hsame⟩)⟩
  · have hyear : 9999 < b.year := not_le.mp fun h => hb ⟨hpos, h⟩
    have hab : a < b := lt_of_year_lt (ha.2.trans_lt hyear)
    obtain ⟨c, s, hc, hs⟩ := toDigits_eq_leadingFour (n := b.year.natAbs) (by omega)
    have hbyear : yearText b.year = pad 4 (leadingFour b.year.natAbs) ++ c :: s := by
      rw [yearText, if_neg hpos.not_gt, atLeast, if_neg (by omega), hs]
    have hlead := leadingFour_lt b.year.natAbs
    have hinv : Inverted a b ↔ leadingFour b.year.natAbs < a.year.natAbs := by
      have htr : ¬ Truncates a b := fun h =>
        absurd (toDays_eq_iff.mp (toSeconds_eq_iff.mp h.1).1).1 (by have := ha.2; omega)
      have := ha.1
      rw [Inverted, or_iff_right htr, and_iff_right hyear]
      omega
    rw [hinv, format, format, stem, stem, ha.yearText, hbyear, List.append_assoc,
      List.cons_append, pad_append_lt_iff ha.natAbs_lt hlead, pad_append_lt_iff hlead ha.natAbs_lt,
      List.cons_lt_cons_iff, List.cons_lt_cons_iff]
    simp only [hab, hab.not_gt, hsame, hlt hc, (hlt hc).not_gt, (hlt hc).ne', true_and, false_and,
      or_false, true_or, and_true, and_false, false_or, not_lt]
    exact le_iff_lt_or_eq.symm

/-- `a` is at most `b` in the order of the texts. -/
def TextLE (a b : UTCTime) : Prop := (a ≤ b ∧ ¬ Inverted a b) ∨ Inverted b a

instance (a b : UTCTime) : Decidable (TextLE a b) := inferInstanceAs (Decidable (_ ∨ _))

theorem not_format_lt_format (h : a.FourDigits ∨ b.FourDigits) :
    ¬ b.format < a.format ↔ TextLE a b := by
  have hlt : b.format < a.format ↔ (b < a ∧ ¬ Inverted b a) ∨ Inverted a b := by
    rcases h with ha | hb
    · exact (format_lt_format ha).2
    · exact (format_lt_format hb).1
  rw [hlt, TextLE]
  rcases lt_or_ge b a with hba | hab
  · have hinv : ¬ Inverted a b := not_inverted_of_le hba.le h.symm
    simp [hba, hba.not_ge, hinv]
  · have hinv : ¬ Inverted b a := not_inverted_of_le hab h
    simp [hab, hab.not_gt, hinv]

end UTCTime

/-! ### A text names one time -/

/-- The digits of a number tell it. -/
theorem ofDigitChars_atLeast (w n : ℕ) : Nat.ofDigitChars 10 (atLeast w n) 0 = n := by
  unfold atLeast
  split_ifs with hn
  · exact ofDigitChars_pad hn
  · exact Nat.ofDigitChars_toDigits (by decide) (by decide)

theorem isDigit_of_mem_atLeast {w n : ℕ} {c : Char} (h : c ∈ atLeast w n) : c.isDigit = true := by
  unfold atLeast at h
  split_ifs at h
  · exact isDigit_of_mem_pad h
  · exact Nat.isDigit_of_mem_toDigits (by decide) (by decide) h

/-- A number before a dash is told by the digits that the text begins with. -/
theorem takeWhile_atLeast (w n : ℕ) (u : List Char) :
    (atLeast w n ++ '-' :: u).takeWhile Char.isDigit = atLeast w n ∧
      (atLeast w n ++ '-' :: u).dropWhile Char.isDigit = '-' :: u := by
  have hdigits : ∀ c ∈ atLeast w n, c.isDigit = true := fun c => isDigit_of_mem_atLeast
  rw [List.takeWhile_append_of_pos hdigits, List.dropWhile_append_of_pos hdigits]
  exact ⟨List.append_nil _, rfl⟩

theorem atLeast_append_inj {w m n : ℕ} {u v : List Char}
    (h : atLeast w m ++ '-' :: u = atLeast w n ++ '-' :: v) : m = n ∧ u = v := by
  have htake := congrArg (List.takeWhile Char.isDigit) h
  have hdrop := congrArg (List.dropWhile Char.isDigit) h
  rw [(takeWhile_atLeast w m u).1, (takeWhile_atLeast w n v).1] at htake
  rw [(takeWhile_atLeast w m u).2, (takeWhile_atLeast w n v).2] at hdrop
  refine ⟨?_, (List.cons.inj hdrop).2⟩
  rw [← ofDigitChars_atLeast w m, htake, ofDigitChars_atLeast]

/-- A number does not begin with a dash. -/
theorem atLeast_append_ne_dash (n : ℕ) (u v : List Char) :
    atLeast 4 n ++ '-' :: u ≠ '-' :: v := by
  intro h
  have htake := congrArg (List.takeWhile Char.isDigit) h
  rw [(takeWhile_atLeast 4 n u).1] at htake
  have hnil : atLeast 4 n = [] := htake
  have hn : n = 0 := by rw [← ofDigitChars_atLeast 4 n, hnil]; rfl
  rw [hn] at hnil
  exact absurd hnil (by decide)

theorem yearText_append_inj {x y : ℤ} {u v : List Char}
    (h : yearText x ++ '-' :: u = yearText y ++ '-' :: v) : x = y ∧ u = v := by
  unfold yearText at h
  split_ifs at h with hx hy hy
  · obtain ⟨habs, hrest⟩ := atLeast_append_inj (List.cons.inj h).2
    exact ⟨by omega, hrest⟩
  · exact absurd h.symm (atLeast_append_ne_dash _ _ _)
  · exact absurd h (atLeast_append_ne_dash _ _ _)
  · obtain ⟨habs, hrest⟩ := atLeast_append_inj h
    exact ⟨by omega, hrest⟩

/-- **A text is the text of one time.** -/
theorem UTCTime.format_injective : Function.Injective UTCTime.format := by
  intro a b h
  unfold UTCTime.format UTCTime.stem at h
  obtain ⟨hyear, h⟩ := yearText_append_inj h
  obtain ⟨hmonth, h⟩ := pad_append_inj a.month_lt b.month_lt h
  obtain ⟨hday, h⟩ := pad_append_inj a.day_lt b.day_lt (List.cons.inj h).2
  obtain ⟨hhour, h⟩ := pad_append_inj a.hour_lt b.hour_lt (List.cons.inj h).2
  obtain ⟨hminute, h⟩ := pad_append_inj a.minute_lt b.minute_lt (List.cons.inj h).2
  obtain ⟨hsecond, h⟩ := pad_append_inj a.second_lt b.second_lt (List.cons.inj h).2
  have hfraction := List.append_cancel_right h
  exact UTCTime.ext hyear hmonth hday hhour hminute hsecond
    ((fraction_inj a.nanosecond_lt b.nanosecond_lt).mp hfraction)
end UnisetPanel
