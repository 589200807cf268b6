/-
  `bind` of the ClickHouse driver: how the arguments of a query get into its text.

  The driver writes every argument out and puts it where the question mark
  stands: a string between quotes, with a backslash before every quote and every
  backslash in it, and a time as a call of `toDateTime` with its whole seconds.
  So what the server is given is one text, and it has to find the arguments in
  it again.  `Binds` says what becomes of a part of a query wherever it stands.

  A `QueryTime` is a time as `parseTime` of the handlers returns it: in UTC, if
  its text ends with `Z`, and else in the zone of the machine or in one that has
  no name.
-/
import UnisetPanel.SqlCondition
import UnisetPanel.RFC3339

namespace UnisetPanel

open DecimalText (pad)
open SqlCondition (Token Lexer Lexes)

/-! ### Times -/

/-- The text that the layout `2006-01-02` gives a time. -/
def UTCTime.dateText (t : UTCTime) : List Char :=
  yearText t.year ++ '-' :: (pad 2 t.month ++ '-' :: pad 2 t.day)

/-- The same of `15:04:05`. -/
def UTCTime.timeText (t : UTCTime) : List Char :=
  pad 2 t.hour ++ ':' :: (pad 2 t.minute ++ ':' :: pad 2 t.second)

/-- The same of `2006-01-02 15:04:05`. -/
def UTCTime.dateTime (t : UTCTime) : List Char := t.dateText ++ ' ' :: t.timeText

/-- The seconds from year 0 to 1970. -/
def unixEpoch : ℤ := 719528 * 86400

/-- `Unix` of a time in UTC. -/
def UTCTime.unix (t : UTCTime) : ℤ := t.toSeconds - unixEpoch

example : UTCTime.unix ⟨1970, 1, 1, 0, 0, 0, 0, by decide⟩ = 0 := by decide

/-- A `time.Time`, as `parseTime` returns it. -/
inductive QueryTime where
  | utc (t : UTCTime)
  /-- The location is called `Local`, or has no name. -/
  | unnamed (unix : ℤ) (nanosecond : ℕ)
  deriving DecidableEq

/-- `Unix`. -/
def QueryTime.unix : QueryTime → ℤ
  | .utc t => t.unix
  | .unnamed unix _ => unix

/-- An argument of a query. -/
inductive QueryArg where
  | time (t : QueryTime)
  | text (s : String)
  deriving DecidableEq

namespace ClickHouse

/-! ### Writing an argument -/

/-- `%d`. -/
def decimal (n : ℤ) : List Char :=
  if n < 0 then '-' :: Nat.toDigits 10 n.natAbs else Nat.toDigits 10 n.natAbs

/-- `stringQuoteReplacer`. -/
def stringQuoteReplacer (s : List Char) : List Char :=
  s.flatMap fun c => if c = '\\' ∨ c = '\'' then ['\\', c] else [c]

/-- `quote`. -/
def quote (s : List Char) : List Char := '\'' :: (stringQuoteReplacer s ++ ['\''])

/-- `formatTime` at the scale of seconds, `tz` being the location of the server.  Nothing in `UTC`
has to be escaped, so there is no error. -/
def formatTime (tz : List Char) : QueryTime → List Char
  | .unnamed unix _ =>
    if unix = 0 then "toDateTime(0)".toList
    else "toDateTime('".toList ++ decimal unix ++ "')".toList
  | .utc t =>
    if tz = "UTC".toList then "toDateTime('".toList ++ t.dateTime ++ "')".toList
    else "toDateTime('".toList ++ t.dateTime ++ "', '".toList ++
      stringQuoteReplacer "UTC".toList ++ "')".toList

/-- `format`. -/
def format (tz : List Char) : QueryArg → List Char
  | .text s => quote s.toList
  | .time t => formatTime tz t

/-! ### Putting the arguments in -/

/-- What `bindQueryOrAppendParameters` fails with. -/
inductive BindError where
  /-- `ErrUnsupportedQueryParameter` -/
  | unsupportedQueryParameter
  /-- `ErrBindMixedParamsFormats` -/
  | mixedParamsFormats
  /-- `have no arg for param ? at last %d positions` -/
  | noArg (unbindCount : ℕ)
  /-- `have no arg for %s param` -/
  | noNumericArg
  deriving DecidableEq

/-- `bindPositional`. -/
def bindPositional (tz : List Char) : List Char → List QueryArg → Except BindError (List Char)
  | '\\' :: '?' :: s, vs => (bindPositional tz s vs).map ('?' :: ·)
  | '?' :: s, v :: vs => (bindPositional tz s vs).map (format tz v ++ ·)
  | '?' :: s, [] =>
    match bindPositional tz s [] with
    | .error (.noArg n) => .error (.noArg (n + 1))
    | _ => .error (.noArg 1)
  | c :: s, vs => (bindPositional tz s vs).map (c :: ·)
  | [], _ => .ok []

/-- `params`, at `$` and some digits. -/
def numericParam (params : List (List Char)) (digits : List Char) : Option (List Char) :=
  (params.zipIdx.find? fun p => Nat.toDigits 10 (p.2 + 1) = digits).map Prod.fst

/-- `bindNumericRe.ReplaceAllStringFunc`; the digits are those since the last `$`. -/
def replaceNumeric (params : List (List Char)) :
    Option (List Char) → List Char → Except BindError (List Char)
  | none, [] => .ok []
  | none, c :: s =>
    if c = '$' then replaceNumeric params (some []) s
    else (replaceNumeric params none s).map (c :: ·)
  | some digits, [] => written digits
  | some digits, c :: s =>
    if c.isDigit then replaceNumeric params (some (digits ++ [c])) s
    else do
      let param ← written digits
      let rest ← if c = '$' then replaceNumeric params (some []) s
        else (replaceNumeric params none s).map (c :: ·)
      return param ++ rest
where
  /-- `$` alone stays. -/
  written (digits : List Char) : Except BindError (List Char) :=
    if digits = [] then .ok ['$']
    else (numericParam params digits).elim (.error .noNumericArg) .ok

/-- `bindNumeric`. -/
def bindNumeric (tz : List Char) (query : List Char) (args : List QueryArg) :
    Except BindError (List Char) :=
  replaceNumeric (args.map (format tz)) none query

/-- `bindNumericRe.MatchString`. -/
def haveNumeric : List Char → Bool
  | '$' :: c :: s => c.isDigit || haveNumeric (c :: s)
  | _ :: s => haveNumeric s
  | [] => false

/-- `bindPositionalRe.MatchString`. -/
def havePositional : List Char → Bool
  | c :: '?' :: s => c ≠ '\\' || havePositional ('?' :: s)
  | _ :: s => havePositional s
  | [] => false

/-- `bind`; no argument has a name. -/
def bind (tz : List Char) (query : List Char) (args : List QueryArg) :
    Except BindError (List Char) :=
  if args.length = 0 then .ok query
  else if haveNumeric query ∧ havePositional query then .error .mixedParamsFormats
  else if haveNumeric query then bindNumeric tz query args
  else bindPositional tz query args

/-- `hasQueryParamsRe.MatchString`. -/
def hasQueryParams : List Char → Bool
  | [] => false
  | c :: s =>
    -- on the same line: a character, a colon behind it, another character, the closing brace
    (c = '{' && ((((s.takeWhile (· ≠ '\n')).drop 1).dropWhile (· ≠ ':')).drop 2).contains '}') ||
      hasQueryParams s

/-- `bindQueryOrAppendParameters`, without parameters in the options; an argument without a name is
no query parameter. -/
def bindQueryOrAppendParameters (paramsProtocolSupport : Bool) (tz : List Char)
    (query : List Char) (args : List QueryArg) : Except BindError (List Char) :=
  if paramsProtocolSupport ∧ 0 < args.length ∧ hasQueryParams query then
    .error .unsupportedQueryParameter
  else bind tz query args

/-! ### What becomes of a part of a query -/

/-- A text that `bind` leaves alone. -/
def Unmarked (s : List Char) : Prop := ∀ c ∈ s, c ≠ '?' ∧ c ≠ '\\' ∧ c ≠ '$' ∧ c ≠ '{'

instance (s : List Char) : Decidable (Unmarked s) := List.decidableBAll _ s

theorem Unmarked.append {s t : List Char} (hs : Unmarked s) (ht : Unmarked t) :
    Unmarked (s ++ t) := List.forall_mem_append.mpr ⟨hs, ht⟩

/-- Characters that are none of the four. -/
theorem unmarked_of_forall {p : Char → Bool} {s : List Char} (hs : ∀ c ∈ s, p c = true)
    (hp : "?\\$\x7b".toList.any p = false) : Unmarked s := by
  intro c hc
  have hnot : c ∉ "?\\$\x7b".toList := fun hmem =>
    absurd (hs c hc) (List.any_eq_false.mp hp c hmem)
  simpa using hnot

theorem unmarked_toDigits (n : ℕ) : Unmarked (Nat.toDigits 10 n) :=
  unmarked_of_forall (fun _ hc => Nat.isDigit_of_mem_toDigits (by decide) (by decide) hc)
    (by decide)

/-- A part of a query becomes `t` with these arguments, wherever it stands. -/
structure Binds (tz : List Char) (s : List Char) (vs : List QueryArg) (t : List Char) : Prop where
  bound : ∀ rest ws, bindPositional tz (s ++ rest) (vs ++ ws) =
    (bindPositional tz rest ws).map (t ++ ·)
  same : vs = [] → t = s
  unmarked : ∀ c ∈ s, c ≠ '$' ∧ c ≠ '{'

section

variable {tz s t u v : List Char} {vs ws : List QueryArg}

theorem bindPositional_cons {c : Char} (hmark : c ≠ '?') (hescape : c ≠ '\\') (s : List Char)
    (vs : List QueryArg) :
    bindPositional tz (c :: s) vs = (bindPositional tz s vs).map (c :: ·) := by
  rw [bindPositional] <;> intros <;> contradiction

theorem map_map_append {ε : Type} (x : Except ε (List Char)) (s t : List Char) :
    (x.map (t ++ ·)).map (s ++ ·) = x.map (s ++ t ++ ·) := by
  cases x with
  | error e => rfl
  | ok a => exact congrArg Except.ok (List.append_assoc s t a).symm

/-- A text without marks stays. -/
theorem Binds.unmarked_text (hs : Unmarked s) : Binds tz s [] s where
  bound rest ws := by
    induction s with
    | nil =>
      show bindPositional tz rest ws = (bindPositional tz rest ws).map id
      cases bindPositional tz rest ws <;> rfl
    | cons c s ih =>
      obtain ⟨hmark, hescape, -⟩ := hs c List.mem_cons_self
      rw [List.cons_append, bindPositional_cons hmark hescape,
        ih fun x hx => hs x (List.mem_cons_of_mem c hx)]
      exact map_map_append _ [c] s
  same _ := rfl
  unmarked c hc := (hs c hc).2.2

/-- A mark becomes the argument. -/
theorem Binds.mark (tz : List Char) (v : QueryArg) : Binds tz ['?'] [v] (format tz v) where
  bound _ _ := rfl
  same h := by cases h
  unmarked c hc := by
    obtain rfl := List.mem_singleton.mp hc
    decide

theorem Binds.append (hs : Binds tz s vs t) (hu : Binds tz u ws v) :
    Binds tz (s ++ u) (vs ++ ws) (t ++ v) where
  bound rest xs := by
    rw [List.append_assoc, List.append_assoc, hs.bound, hu.bound, map_map_append]
  same h := by
    obtain ⟨hvs, hws⟩ := List.append_eq_nil_iff.mp h
    rw [hs.same hvs, hu.same hws]
  unmarked c hc := (List.mem_append.mp hc).elim (hs.unmarked c) (hu.unmarked c)

/-- Parts with an unmarked text between them. -/
theorem Binds.intercalate {ι : Type*} {sep : List Char} (hsep : Unmarked sep)
    {part text : ι → List Char} {args : ι → List QueryArg}
    (h : ∀ i, Binds tz (part i) (args i) (text i)) (is : List ι) :
    Binds tz (sep.intercalate (is.map part)) (is.flatMap args)
      (sep.intercalate (is.map text)) := by
  have hempty : Binds tz [] [] [] := Binds.unmarked_text (by decide)
  induction is with
  | nil => exact hempty
  | cons i is ih =>
    cases is with
    | nil => simpa using h i
    | cons j is =>
      have hall := ((h i).append (Binds.unmarked_text hsep)).append ih
      simpa [List.intercalate_cons_cons] using hall

theorem haveNumeric_eq_false (h : '$' ∉ s) : haveNumeric s = false := by
  fun_induction haveNumeric s with
  | case1 c s ih => exact absurd List.mem_cons_self h
  | case2 c s _ ih => exact ih (mt (List.mem_cons_of_mem c) h)
  | case3 => rfl

theorem hasQueryParams_eq_false (h : '{' ∉ s) : hasQueryParams s = false := by
  induction s with
  | nil => rfl
  | cons c s ih =>
    obtain ⟨hc, hs⟩ := not_or.mp (mt List.mem_cons.mpr h)
    rw [hasQueryParams, ih hs, decide_eq_false (Ne.symm hc)]
    rfl

/-- **A whole query** becomes what its parts become. -/
theorem Binds.query (h : Binds tz s vs t) (paramsProtocolSupport : Bool) :
    bindQueryOrAppendParameters paramsProtocolSupport tz s vs = .ok t := by
  have hparams : hasQueryParams s = false :=
    hasQueryParams_eq_false fun hmem => (h.unmarked _ hmem).2 rfl
  have hnumeric : haveNumeric s = false :=
    haveNumeric_eq_false fun hmem => (h.unmarked _ hmem).1 rfl
  unfold bindQueryOrAppendParameters bind
  rw [hparams, hnumeric, if_neg (by simp)]
  by_cases hvs : vs = []
  · rw [h.same hvs, hvs]
    rfl
  · have hbound := h.bound [] []
    rw [List.append_nil, List.append_nil] at hbound
    rw [if_neg (mt List.length_eq_zero_iff.mp hvs), if_neg (by simp), if_neg (by simp), hbound]
    exact congrArg Except.ok (List.append_nil t)

end

/-! ### Finding the arguments again -/

theorem nextAll_stringQuoteReplacer (s : List Char) (ts : List Token) (w : List Char) :
    (Lexer.mk ts (.text w)).nextAll (stringQuoteReplacer s) = ⟨ts, .text (w ++ s)⟩ := by
  induction s generalizing w with
  | nil => exact congrArg (fun x => Lexer.mk ts (.text x)) (List.append_nil w).symm
  | cons c s ih =>
    have hstep : (Lexer.mk ts (.text w)).nextAll
        (if c = '\\' ∨ c = '\'' then ['\\', c] else [c]) = ⟨ts, .text (w ++ [c])⟩ := by
      split_ifs with hc
      · show Lexer.mk ts (if c = '\'' ∨ c = '\\' then .text (w ++ [c]) else .lost) = _
        rw [if_pos hc.symm]
      · obtain ⟨hescape, hquote⟩ := not_or.mp hc
        show Lexer.mk ts (if c = '\'' then .quote w else if c = '\\' then .escape w
          else .text (w ++ [c])) = _
        rw [if_neg hquote, if_neg hescape]
    unfold stringQuoteReplacer at ih ⊢
    rw [List.flatMap_cons, Lexer.nextAll_append, hstep, ih, List.append_assoc]
    rfl

/-- **A string is found again**, whatever it is made of. -/
theorem lexes_quote (s : List Char) : Lexes (quote s) [.text s] := by
  intro acc
  show ((Lexer.mk acc (.text [])).nextAll (stringQuoteReplacer s ++ ['\''])).ends = _
  rw [Lexer.nextAll_append, nextAll_stringQuoteReplacer]
  rfl

example : quote "a'b".toList = "'a\\'b'".toList := by decide

/-- A character that is not escaped. -/
def Unquoted (c : Char) : Prop := c ≠ '\\' ∧ c ≠ '\''

instance (c : Char) : Decidable (Unquoted c) := inferInstanceAs (Decidable (_ ∧ _))

theorem unquoted_of_isDigit {c : Char} (h : c.isDigit = true) : Unquoted c := by
  constructor <;> rintro rfl <;> exact absurd h (by decide)

theorem unquoted_decimal (n : ℤ) : ∀ c ∈ decimal n, Unquoted c := by
  have hdigits : ∀ c ∈ Nat.toDigits 10 n.natAbs, Unquoted c := fun c hc =>
    unquoted_of_isDigit (Nat.isDigit_of_mem_toDigits (by decide) (by decide) hc)
  unfold decimal
  split_ifs
  · exact List.forall_mem_cons.mpr ⟨by decide, hdigits⟩
  · exact hdigits

theorem unquoted_dateTime (t : UTCTime) : ∀ c ∈ t.dateTime, Unquoted c := by
  have hpad : ∀ w n, ∀ c ∈ pad w n, Unquoted c := fun w n c hc =>
    unquoted_of_isDigit (DecimalText.isDigit_of_mem_pad hc)
  have hnumber : ∀ c ∈ atLeast 4 t.year.natAbs, Unquoted c := fun c hc =>
    unquoted_of_isDigit (isDigit_of_mem_atLeast hc)
  have hyear : ∀ c ∈ yearText t.year, Unquoted c := by
    unfold yearText
    split_ifs
    · exact List.forall_mem_cons.mpr ⟨by decide, hnumber⟩
    · exact hnumber
  unfold UTCTime.dateTime UTCTime.dateText UTCTime.timeText
  simp only [List.forall_mem_append, List.forall_mem_cons]
  exact ⟨⟨hyear, by decide, hpad 2 _, by decide, hpad 2 _⟩, by decide, hpad 2 _, by decide,
    hpad 2 _, by decide, hpad 2 _⟩

/-- A text in which nothing is replaced. -/
theorem quote_eq {s : List Char} (h : ∀ c ∈ s, Unquoted c) : quote s = '\'' :: (s ++ ['\'']) := by
  have hsame : stringQuoteReplacer s = s := by
    induction s with
    | nil => rfl
    | cons c s ih =>
      have hrest := ih fun x hx => h x (List.mem_cons_of_mem c hx)
      unfold stringQuoteReplacer at hrest ⊢
      rw [List.flatMap_cons, hrest, if_neg (not_or.mpr (h c List.mem_cons_self))]
      rfl
  unfold quote
  rw [hsame]

end ClickHouse

end UnisetPanel
