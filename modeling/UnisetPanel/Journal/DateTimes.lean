/-
  Times in the text of a query, and what ClickHouse reads of them.

  `DateTimes` is what a server in some timezone does with `toDateTime`, for the
  seconds that a `DateTime` has: those from 1970 until 2106.  The text of a
  number is only taken for one if it has five digits at least.  A time that is
  `Understood` arrives at its whole second (`DateTimes.value_timeExpr`).
-/
import UnisetPanel.Journal.Bind

namespace UnisetPanel

open SqlCondition (Token Expr Closed commaTokens)
open ClickHouse (decimal quote formatTime lexes_quote quote_eq)

/-! ### What ClickHouse does -/

/-- The value of a column or of an argument; times are in nanoseconds. -/
inductive JournalValue where
  | time (t : ℤ)
  | text (s : String)
  deriving DecidableEq, Repr

/-- A second that a `DateTime` has. -/
def InDateTime (unix : ℤ) : Prop := 0 ≤ unix ∧ unix < 2 ^ 32

instance (unix : ℤ) : Decidable (InDateTime unix) := inferInstanceAs (Decidable (_ ∧ _))

/-- `toDateTime` of a server in the timezone `tz`, in seconds. -/
structure DateTimes (tz : List Char) where
  toDateTime : List Token → Option ℤ
  /-- A number. -/
  zero : toDateTime [.word ['0']] = some 0
  /-- The text of a number. -/
  seconds : ∀ n : ℕ, 10 ^ 4 ≤ n → n < 2 ^ 32 → toDateTime [.text (Nat.toDigits 10 n)] = some (n : ℤ)
  /-- A text in the timezone of the server. -/
  own : tz = "UTC".toList → ∀ t : UTCTime, InDateTime t.unix →
    toDateTime [.text t.dateTime] = some t.unix
  /-- A text in a timezone that is named. -/
  named : ∀ t : UTCTime, InDateTime t.unix →
    toDateTime [.text t.dateTime, .text "UTC".toList] = some t.unix

/-- What an expression of the queries stands for. -/
def DateTimes.value {tz : List Char} (server : DateTimes tz) : Expr → Option JournalValue
  | .literal (.text w) => some (.text (String.ofList w))
  | .call f args =>
    if f = "toDateTime".toList then
      (server.toDateTime args).map fun unix => .time (unix * 1000000000)
    else none
  | _ => none

/-- A time that the server understands as the driver writes it. -/
def QueryTime.Understood : QueryTime → Prop
  | .utc t => InDateTime t.unix
  | .unnamed unix _ => unix = 0 ∨ 10 ^ 4 ≤ unix ∧ unix < 2 ^ 32

instance : (t : QueryTime) → Decidable t.Understood
  | .utc t => inferInstanceAs (Decidable (InDateTime t.unix))
  | .unnamed unix _ => inferInstanceAs (Decidable (unix = 0 ∨ 10 ^ 4 ≤ unix ∧ unix < 2 ^ 32))

/-! ### A time in the text -/

/-- The arguments of `toDateTime`. -/
def timeLiterals (tz : List Char) : QueryTime → List Token
  | .unnamed unix _ => if unix = 0 then [.word ['0']] else [.text (decimal unix)]
  | .utc t =>
    if tz = "UTC".toList then [.text t.dateTime] else [.text t.dateTime, .text "UTC".toList]

/-- What the server reads of a time. -/
def timeExpr (tz : List Char) (t : QueryTime) : Expr :=
  .call "toDateTime".toList (timeLiterals tz t)

theorem lexes_formatTime (tz : List Char) (t : QueryTime) :
    Closed (formatTime tz t) (.word "toDateTime".toList :: .sign '(' ::
      (commaTokens (timeLiterals tz t) ++ [.sign ')'])) := by
  have hopen : Closed "toDateTime(".toList [.word "toDateTime".toList, .sign '('] := fun _ => rfl
  have hone : ∀ w, (∀ c ∈ w, ClickHouse.Unquoted c) →
      Closed ("toDateTime('".toList ++ w ++ "')".toList)
        (.word "toDateTime".toList :: .sign '(' :: (commaTokens [.text w] ++ [.sign ')'])) := by
    intro w hw
    have hall := hopen.append ((lexes_quote w).sign (c := ')') rfl)
    rw [quote_eq hw] at hall
    simpa [commaTokens] using hall
  cases t with
  | unnamed unix nanosecond =>
    simp only [formatTime, timeLiterals]
    split_ifs
    · exact fun _ => rfl
    · exact hone _ (ClickHouse.unquoted_decimal unix)
  | utc t =>
    simp only [formatTime, timeLiterals]
    split_ifs
    · exact hone _ (ClickHouse.unquoted_dateTime t)
    · have hcomma := (lexes_quote t.dateTime).sign (c := ',') rfl
      have hzone := ((lexes_quote "UTC".toList).cons_blank (b := ' ') rfl).sign (c := ')') rfl
      have hall := hopen.append (hcomma.append hzone)
      rw [quote_eq (ClickHouse.unquoted_dateTime t), quote] at hall
      simpa [commaTokens] using hall

theorem literal_of_mem_timeLiterals (tz : List Char) (t : QueryTime) :
    timeLiterals tz t ≠ [] ∧ ∀ l ∈ timeLiterals tz t, SqlCondition.literal l = some l := by
  cases t with
  | unnamed unix nanosecond =>
    simp only [timeLiterals]
    split_ifs <;> exact ⟨List.cons_ne_nil _ _, by simp [SqlCondition.literal]⟩
  | utc t =>
    simp only [timeLiterals]
    split_ifs <;> exact ⟨List.cons_ne_nil _ _, by simp [SqlCondition.literal]⟩

/-- **A time arrives** at its whole second. -/
theorem DateTimes.value_timeExpr {tz : List Char} (server : DateTimes tz) {t : QueryTime}
    (ht : t.Understood) : server.value (timeExpr tz t) = some (.time (t.unix * 1000000000)) := by
  have hseconds : server.toDateTime (timeLiterals tz t) = some t.unix := by
    cases t with
    | unnamed unix nanosecond =>
      simp only [timeLiterals]
      split_ifs with hzero
      · rw [server.zero]
        exact congrArg some hzero.symm
      · obtain ⟨hmin, hmax⟩ := ht.resolve_left hzero
        obtain ⟨n, rfl⟩ := Int.eq_ofNat_of_zero_le (show 0 ≤ unix by omega)
        have hnat : decimal n = Nat.toDigits 10 n := if_neg (by omega)
        rw [hnat, server.seconds n (by omega) (by omega)]
        rfl
    | utc t =>
      simp only [timeLiterals]
      split_ifs with htz
      · exact server.own htz t ht
      · exact server.named t ht
  rw [timeExpr, DateTimes.value, if_pos rfl, hseconds]
  rfl

/-! ### A server in UTC -/

theorem UTCTime.fourDigits_of_unix {t : UTCTime} (h : InDateTime t.unix) : t.FourDigits := by
  obtain ⟨hmin, hmax⟩ := h
  unfold UTCTime.unix unixEpoch at hmin hmax
  constructor
  · by_contra hneg
    -- it would be before the start of year 0
    have hlt : t.toSeconds < UTCTime.toSeconds ⟨0, 1, 1, 0, 0, 0, 0, by decide⟩ :=
      UTCTime.toSeconds_lt_iff.mpr (.inl (UTCTime.toDays_lt_iff.mpr (.inl (not_le.mp hneg))))
    have hstart : UTCTime.toSeconds ⟨0, 1, 1, 0, 0, 0, 0, by decide⟩ = 0 := by decide
    omega
  · by_contra hlate
    have hlt : UTCTime.toSeconds ⟨9999, 1, 1, 0, 0, 0, 0, by decide⟩ < t.toSeconds :=
      UTCTime.toSeconds_lt_iff.mpr (.inl (UTCTime.toDays_lt_iff.mpr (.inl (not_le.mp hlate))))
    have hlast : 719528 * 86400 + 2 ^ 32 ≤
        UTCTime.toSeconds ⟨9999, 1, 1, 0, 0, 0, 0, by decide⟩ := by decide
    omega

/-- A text of the layout `2006-01-02 15:04:05`, in UTC. -/
def readDateTime (s : List Char) : Option ℤ :=
  (UTCTime.parse (s.take 10 ++ 'T' :: (s.drop 11 ++ ['Z']))).map UTCTime.unix

/-- The same time without the fraction of its second. -/
def UTCTime.wholeSecond (t : UTCTime) : UTCTime where
  __ := t
  nanosecond := 0
  valid := ⟨t.valid.1, t.valid.2.1, t.valid.2.2.1, t.valid.2.2.2.1, t.valid.2.2.2.2.1, by decide⟩

theorem readDateTime_dateTime {t : UTCTime} (ht : t.FourDigits) :
    readDateTime t.dateTime = some t.unix := by
  have hlength : t.dateText.length = 10 := by
    unfold UTCTime.dateText
    rw [ht.yearText]
    simp [DecimalText.length_pad]
  have htake : t.dateTime.take 10 = t.dateText := List.take_left' hlength
  have hdrop : t.dateTime.drop 11 = t.timeText := by
    unfold UTCTime.dateTime
    rw [← List.singleton_append, ← List.append_assoc]
    exact List.drop_left' (by rw [List.length_append, hlength]; rfl)
  have hformat : t.wholeSecond.format = t.dateText ++ 'T' :: (t.timeText ++ ['Z']) := by
    simp [UTCTime.format, UTCTime.stem, UTCTime.dateText, UTCTime.timeText, UTCTime.wholeSecond,
      fraction]
  have hparse : UTCTime.parse t.wholeSecond.format = some t.wholeSecond := UTCTime.parse_format ht
  unfold readDateTime
  rw [htake, hdrop, ← hformat, hparse]
  rfl

/-- `toDateTime` of a server in UTC. -/
def utcToDateTime : List Token → Option ℤ
  | [.word w] => if w.all Char.isDigit then some ((Nat.ofDigitChars 10 w 0 : ℕ) : ℤ) else none
  | [.text s] =>
    if s.all Char.isDigit then some ((Nat.ofDigitChars 10 s 0 : ℕ) : ℤ) else readDateTime s
  | [.text s, .text zone] => if zone = "UTC".toList then readDateTime s else none
  | _ => none

theorem all_isDigit_toDigits (n : ℕ) : (Nat.toDigits 10 n).all Char.isDigit = true :=
  List.all_eq_true.mpr fun _ hc => Nat.isDigit_of_mem_toDigits (by decide) (by decide) hc

/-- A server in UTC. -/
def utcServer : DateTimes "UTC".toList where
  toDateTime := utcToDateTime
  zero := rfl
  seconds n _ _ := by
    show (if (Nat.toDigits 10 n).all Char.isDigit then
      some ((Nat.ofDigitChars 10 (Nat.toDigits 10 n) 0 : ℕ) : ℤ) else _) = _
    rw [if_pos (all_isDigit_toDigits n), Nat.ofDigitChars_ten_toDigits]
  own _ t ht := by
    have hdash : t.dateTime.all Char.isDigit = false := by
      rw [List.all_eq_false]
      exact ⟨'-', by simp [UTCTime.dateTime, UTCTime.dateText], by decide⟩
    show (if t.dateTime.all Char.isDigit then _ else readDateTime t.dateTime) = _
    rw [hdash, readDateTime_dateTime (UTCTime.fourDigits_of_unix ht)]
    rfl
  named t ht := by
    show (if "UTC".toList = "UTC".toList then readDateTime t.dateTime else none) = _
    rw [if_pos rfl, readDateTime_dateTime (UTCTime.fourDigits_of_unix ht)]

end UnisetPanel
