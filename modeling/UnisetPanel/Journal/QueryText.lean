/-
  The text of the queries that `Client.Query` sends, and what ClickHouse reads.

  `Query` builds the text of its `WHERE` from pieces and a list of arguments
  beside it; the driver writes the arguments into the text, the times in whole
  seconds.  `JournalQueryParams.selects` says which messages are meant.  The text
  that arrives says that, with the times at their whole seconds: every condition
  has its own arguments, and nothing in a filter is read as SQL
  (`read_queries`).
-/
import UnisetPanel.Browser.LiveFilter
import UnisetPanel.Journal.DateTimes

namespace UnisetPanel

open SqlCondition (Token Clause Lexes Closed commaTokens)
open ClickHouse (quote formatTime lexes_quote Unmarked Binds)

/-! ### The messages -/

/-- The columns of a message. -/
def JournalMessage.column (msg : JournalMessage) (name : List Char) : Option JournalValue :=
  if name = "timestamp".toList then some (.time msg.timestamp)
  else if name = "mtype".toList then some (.text msg.mtype)
  else if name = "mgroup".toList then some (.text msg.mgroup)
  else if name = "message".toList then some (.text msg.message)
  else if name = "name".toList then some (.text msg.name)
  else none

/-- The comparisons of ClickHouse. -/
def JournalValue.compare (escapes : Bool) : SqlCondition.Op → JournalValue → JournalValue → Bool
  | .ge, .time x, .time y => decide (y ≤ x)
  | .le, .time x, .time y => decide (x ≤ y)
  | .eq, .text x, .text y => decide (x = y)
  | .ilike, .text x, .text y => ilike escapes x y
  | _, _, _ => false

/-! ### The texts -/

/-- `journal.QueryParams`, with the times as they are parsed. -/
structure JournalQuery where
  fromTime : Option QueryTime
  toTime : Option QueryTime
  mTypes : List String
  mGroups : List String
  search : String
  limit : ℕ
  offset : ℕ

namespace JournalQuery

variable (q : JournalQuery)

/-- The same with the times at their whole seconds. -/
def atSeconds : JournalQueryParams where
  fromTime := q.fromTime.map fun t => t.unix * 1000000000
  toTime := q.toTime.map fun t => t.unix * 1000000000
  mTypes := q.mTypes
  mGroups := q.mGroups
  search := q.search
  limit := q.limit
  offset := q.offset

/-- `searchPattern`. -/
def searchPattern : String := "%" ++ q.search ++ "%"

/-- `<column> IN (?,..,?)`. -/
def inText (column : String) (values : List String) : List Char :=
  column.toList ++ " IN (".toList ++ (",".toList.intercalate (values.map fun _ => ['?']) ++ [')'])

/-- `conditions`. -/
def conditions : List (List Char) :=
  (if q.fromTime.isSome then ["timestamp >= ?".toList] else []) ++
  (if q.toTime.isSome then ["timestamp <= ?".toList] else []) ++
  (if 0 < q.mTypes.length then [inText "mtype" q.mTypes] else []) ++
  (if 0 < q.mGroups.length then [inText "mgroup" q.mGroups] else []) ++
  if q.search ≠ "" then ["(message ILIKE ? OR name ILIKE ?)".toList] else []

/-- `args`. -/
def args : List QueryArg :=
  (q.fromTime.map .time).toList ++ (q.toTime.map .time).toList ++ q.mTypes.map .text ++
  q.mGroups.map .text ++
  if q.search ≠ "" then [.text q.searchPattern, .text q.searchPattern] else []

/-- `whereClause`. -/
def whereClause : List Char :=
  if 0 < q.conditions.length then "WHERE ".toList ++ " AND ".toList.intercalate q.conditions
  else []

/-- `countQuery`. -/
def countQuery (database table : List Char) : List Char :=
  "SELECT count() FROM ".toList ++ (database ++ '.' :: table) ++ ' ' :: q.whereClause

/-- `ORDER BY` to the end of `dataQuery`. -/
def pageText : List Char :=
  "ORDER BY timestamp DESC\n\t\tLIMIT".toList ++
    ' ' :: (Nat.toDigits 10 (rowLimit q.limit) ++
      ' ' :: ("OFFSET".toList ++ ' ' :: (Nat.toDigits 10 q.offset ++ ['\n', '\t'])))

/-- `dataQuery`. -/
def dataQuery (database table : List Char) : List Char :=
  "\n\t\tSELECT timestamp, value, name, message, mtype, mgroup, mcode\n\t\tFROM ".toList ++
    (database ++ '.' :: table) ++ '\n' :: '\t' :: '\t' :: (q.whereClause ++
      '\n' :: '\t' :: '\t' :: q.pageText)

end JournalQuery

/-! ### The clauses -/

/-- A condition of a query, its arguments, and the clause that the driver makes of it. -/
structure BoundClause (tz : List Char) where
  query : List Char
  args : List QueryArg
  clause : Clause
  binds : Binds tz query args clause.text

variable {tz : List Char}

/-- `timestamp` and a comparison with a time. -/
def timeClause (tz : List Char) (op : SqlCondition.Op) (text : List Char) (sign : Char)
    (hlexes : Closed text [.word "timestamp".toList, .sign sign, .sign '='])
    (hop : ∀ ts, SqlCondition.operator (.sign sign :: .sign '=' :: ts) = some (op, ts))
    (hunmarked : Unmarked text) (t : QueryTime) : BoundClause tz where
  query := text ++ ['?']
  args := [.time t]
  clause :=
    { text := text ++ formatTime tz t
      tokens := [.word "timestamp".toList, .sign sign, .sign '='] ++
        .word "toDateTime".toList :: .sign '(' :: (commaTokens (timeLiterals tz t) ++ [.sign ')'])
      factor := [.compare op "timestamp".toList (timeExpr tz t)]
      lexes := (hlexes.append (lexes_formatTime tz t)).lexes
      reads := fun ts => by
        obtain ⟨hne, hliterals⟩ := literal_of_mem_timeLiterals tz t
        have hexpr := SqlCondition.expr_call "toDateTime".toList hne hliterals ts
        have hatom := SqlCondition.atom_compare "timestamp".toList (hop _) hexpr
        rw [List.append_assoc]
        show (SqlCondition.atom (.word "timestamp".toList :: .sign sign :: .sign '=' ::
          .word "toDateTime".toList :: .sign '(' ::
            (commaTokens (timeLiterals tz t) ++ [.sign ')'] ++ ts))).map _ = _
        rw [List.append_assoc, List.singleton_append, hatom]
        rfl }
  binds := (Binds.unmarked_text hunmarked).append (Binds.mark tz (.time t))

/-- `timestamp >= ?`. -/
def fromClause (tz : List Char) : QueryTime → BoundClause tz :=
  timeClause tz .ge "timestamp >= ".toList '>' (fun _ => rfl) (fun _ => rfl) (by decide)

/-- `timestamp <= ?`. -/
def toClause (tz : List Char) : QueryTime → BoundClause tz :=
  timeClause tz .le "timestamp <= ".toList '<' (fun _ => rfl) (fun _ => rfl) (by decide)

/-- A column before its values. -/
structure OpensIn (column : String) : Prop where
  closed : Closed (column.toList ++ " IN (".toList)
    [.word column.toList, .word "IN".toList, .sign '(']
  unmarked : Unmarked (column.toList ++ " IN (".toList)

theorem opensIn_mtype : OpensIn "mtype" := ⟨fun _ => rfl, by decide⟩

theorem opensIn_mgroup : OpensIn "mgroup" := ⟨fun _ => rfl, by decide⟩

/-- The condition on the type or the group. -/
def inClause (tz : List Char) {column : String} (hcolumn : OpensIn column) {values : List String}
    (hvalues : values ≠ []) : BoundClause tz where
  query := JournalQuery.inText column values
  args := values.map .text
  clause :=
    { text := column.toList ++ " IN (".toList ++
        (",".toList.intercalate ((values.map String.toList).map quote) ++ [')'])
      tokens := [.word column.toList, .word "IN".toList, .sign '('] ++
        (commaTokens ((values.map String.toList).map .text) ++ [.sign ')'])
      factor := [.isIn column.toList ((values.map String.toList).map .text)]
      lexes := (hcolumn.closed.append
        (SqlCondition.closed_texts lexes_quote (by simpa using hvalues))).lexes
      reads := fun ts => by
        have hne : (values.map String.toList).map Token.text ≠ [] := by simpa using hvalues
        have hliterals := SqlCondition.literals_commaTokens hne
          (by simp [SqlCondition.literal]) ts
        show (SqlCondition.atom (.word column.toList :: .word "IN".toList :: .sign '(' ::
          (commaTokens ((values.map String.toList).map .text) ++ [.sign ')'] ++ ts))).map _ = _
        rw [List.append_assoc, List.singleton_append]
        show ((SqlCondition.literals (commaTokens ((values.map String.toList).map .text) ++
          .sign ')' :: ts)).map _).map _ = _
        rw [hliterals]
        rfl }
  binds := by
    have hcomma : Unmarked ",".toList := by decide
    have hmarks := Binds.intercalate hcomma (fun v : String => Binds.mark tz (.text v)) values
    rw [← List.map_eq_flatMap] at hmarks
    have hend : Binds tz [')'] [] [')'] := Binds.unmarked_text (by decide)
    have hall := (Binds.unmarked_text hcolumn.unmarked).append (hmarks.append hend)
    simpa [JournalQuery.inText, ClickHouse.format, Function.comp_def]
      using hall

/-- The condition on the texts. -/
def searchClause (tz : List Char) (pattern : String) : BoundClause tz where
  query := "(message ILIKE ? OR name ILIKE ?)".toList
  args := [.text pattern, .text pattern]
  clause :=
    { text := "(message ILIKE ".toList ++ (quote pattern.toList ++
        " OR name ILIKE ".toList ++ (quote pattern.toList ++ [')']))
      tokens := [.sign '(', .word "message".toList, .word "ILIKE".toList, .text pattern.toList,
        .word "OR".toList, .word "name".toList, .word "ILIKE".toList, .text pattern.toList,
        .sign ')']
      factor := [.compare .ilike "message".toList (.literal (.text pattern.toList)),
        .compare .ilike "name".toList (.literal (.text pattern.toList))]
      lexes := by
        have hopen : Closed "(message ILIKE ".toList
            [.sign '(', .word "message".toList, .word "ILIKE".toList] := fun _ => rfl
        have hor : Closed "OR name ILIKE ".toList
            [.word "OR".toList, .word "name".toList, .word "ILIKE".toList] := fun _ => rfl
        have hend := (lexes_quote pattern.toList).sign (c := ')') rfl
        have hrest := (lexes_quote pattern.toList).blank (b := ' ') rfl (hor.append hend).lexes
        have hall := hopen.append_lexes hrest
        simpa using hall
      reads := fun _ => rfl }
  binds := by
    have hopen : Binds tz "(message ILIKE ".toList [] "(message ILIKE ".toList :=
      Binds.unmarked_text (by decide)
    have hor : Binds tz " OR name ILIKE ".toList [] " OR name ILIKE ".toList :=
      Binds.unmarked_text (by decide)
    have hend : Binds tz [')'] [] [')'] := Binds.unmarked_text (by decide)
    have hmark := Binds.mark tz (.text pattern)
    have hall := hopen.append ((hmark.append hor).append (hmark.append hend))
    exact hall

/-- The same, if there are values. -/
def inClauses (tz : List Char) {column : String} (hcolumn : OpensIn column)
    (values : List String) : List (BoundClause tz) :=
  if h : values = [] then [] else [inClause tz hcolumn h]

section

variable {column : String} (hcolumn : OpensIn column) (values : List String)

theorem map_query_inClauses : (inClauses tz hcolumn values).map BoundClause.query =
    if 0 < values.length then [JournalQuery.inText column values] else [] := by
  unfold inClauses
  split_ifs with hnil hpos hpos
  · rw [hnil] at hpos
    exact absurd hpos (Nat.lt_irrefl 0)
  · rfl
  · rfl
  · exact absurd (List.length_pos_iff.mpr hnil) hpos

theorem flatMap_args_inClauses :
    (inClauses tz hcolumn values).flatMap BoundClause.args = values.map .text := by
  unfold inClauses
  split_ifs with hnil
  · rw [hnil]
    rfl
  · exact List.append_nil _

end

namespace JournalQuery

variable (tz : List Char) (q : JournalQuery)

/-- All conditions. -/
def clauses : List (BoundClause tz) :=
  (q.fromTime.map (fromClause tz)).toList ++ (q.toTime.map (toClause tz)).toList ++
  inClauses tz opensIn_mtype q.mTypes ++ inClauses tz opensIn_mgroup q.mGroups ++
  if q.search ≠ "" then [searchClause tz q.searchPattern] else []

/-- **The texts are those of the clauses**, -/
theorem map_query_clauses : (clauses tz q).map BoundClause.query = q.conditions := by
  have hfrom : (q.fromTime.map (fromClause tz)).toList.map BoundClause.query =
      if q.fromTime.isSome then ["timestamp >= ?".toList] else [] := by
    cases q.fromTime <;> rfl
  have hto : (q.toTime.map (toClause tz)).toList.map BoundClause.query =
      if q.toTime.isSome then ["timestamp <= ?".toList] else [] := by
    cases q.toTime <;> rfl
  unfold clauses conditions
  rw [List.map_append, List.map_append, List.map_append, List.map_append, map_query_inClauses,
    map_query_inClauses, hfrom, hto]
  congr 1
  split_ifs <;> rfl

/-- **and so are the arguments.** -/
theorem flatMap_args_clauses : (clauses tz q).flatMap BoundClause.args = q.args := by
  have hfrom : (q.fromTime.map (fromClause tz)).toList.flatMap BoundClause.args =
      (q.fromTime.map QueryArg.time).toList := by
    cases q.fromTime <;> rfl
  have hto : (q.toTime.map (toClause tz)).toList.flatMap BoundClause.args =
      (q.toTime.map QueryArg.time).toList := by
    cases q.toTime <;> rfl
  unfold clauses args
  rw [List.flatMap_append, List.flatMap_append, List.flatMap_append, List.flatMap_append,
    flatMap_args_inClauses, flatMap_args_inClauses, hfrom, hto]
  congr 1
  split_ifs <;> rfl

/-! ### What the text says -/

section

variable (server : DateTimes tz) (escapes : Bool) (msg : JournalMessage)

variable {tz}

/-- What a list of clauses says of a message. -/
def holdsOf (cs : List (BoundClause tz)) : Bool :=
  SqlCondition.Condition.holds (JournalValue.compare escapes) server.value msg.column
    (cs.map fun c => c.clause.factor)

theorem holdsOf_append (cs ds : List (BoundClause tz)) :
    holdsOf server escapes msg (cs ++ ds) =
      (holdsOf server escapes msg cs && holdsOf server escapes msg ds) := by
  unfold holdsOf SqlCondition.Condition.holds
  rw [List.map_append, List.all_append]

/-- A comparison with a time. -/
theorem holdsOf_time {t : QueryTime} (ht : t.Understood) {c : BoundClause tz}
    {op : SqlCondition.Op}
    (hc : c.clause.factor = [.compare op "timestamp".toList (timeExpr tz t)]) :
    holdsOf server escapes msg [c] =
      JournalValue.compare escapes op (.time msg.timestamp) (.time (t.unix * 1000000000)) := by
  show ((c.clause.factor.any _) && true) = _
  rw [Bool.and_true, hc]
  show ((server.value (timeExpr tz t)).any (JournalValue.compare escapes op
    (.time msg.timestamp)) || false) = _
  rw [Bool.or_false, server.value_timeExpr ht]
  rfl

/-- One of the values. -/
theorem holdsOf_inClauses {column : String} (hcolumn : OpensIn column) {x : String}
    (hx : msg.column column.toList = some (.text x)) (values : List String) :
    holdsOf server escapes msg (inClauses tz hcolumn values) =
      (if 0 < values.length then [decide (x ∈ values)] else []).all id := by
  unfold inClauses
  split_ifs with hnil hpos hpos
  · rw [hnil] at hpos
    exact absurd hpos (Nat.lt_irrefl 0)
  · rfl
  · have hvalue : ∀ v : String, ((server.value (.literal (.text v.toList))).any
        (JournalValue.compare escapes .eq (.text x))) = decide (x = v) := by
      intro v
      show decide (x = String.ofList v.toList) = _
      rw [String.ofList_toList]
    have hany : (((values.map String.toList).map Token.text).any fun t =>
        (server.value (.literal t)).any (JournalValue.compare escapes .eq (.text x))) =
        decide (x ∈ values) := by
      rw [List.map_map, List.any_map, Bool.eq_iff_iff, List.any_eq_true, decide_eq_true_eq]
      constructor
      · rintro ⟨v, hv, heq⟩
        exact of_decide_eq_true ((hvalue v).symm.trans heq) ▸ hv
      · intro hmem
        exact ⟨x, hmem, (hvalue x).trans (decide_eq_true rfl)⟩
    show ((((msg.column column.toList).any fun y =>
      ((values.map String.toList).map Token.text).any fun t =>
        (server.value (.literal t)).any (JournalValue.compare escapes .eq y)) || false) && true) =
        (decide (x ∈ values) && true)
    rw [hx, Option.any_some, hany, Bool.or_false]
  · exact absurd (List.length_pos_iff.mpr hnil) hpos

/-- The pattern. -/
theorem holdsOf_searchClause (pattern : String) :
    holdsOf server escapes msg [searchClause tz pattern] =
      (ilike escapes msg.message pattern || ilike escapes msg.name pattern) := by
  have hvalue : server.value (.literal (.text pattern.toList)) = some (.text pattern) :=
    congrArg (fun x => some (JournalValue.text x)) (String.ofList_toList)
  show (((((server.value (.literal (.text pattern.toList))).any
      (JournalValue.compare escapes .ilike (.text msg.message))) ||
    (((server.value (.literal (.text pattern.toList))).any
      (JournalValue.compare escapes .ilike (.text msg.name))) || false)) && true)) = _
  rw [hvalue, Bool.and_true, Bool.or_false]
  rfl

/-- **What the clauses say** is what is meant, with the times at their seconds. -/
theorem holdsOf_clauses (hfrom : ∀ t ∈ q.fromTime, t.Understood)
    (hto : ∀ t ∈ q.toTime, t.Understood) :
    holdsOf server escapes msg (clauses tz q) = q.atSeconds.selects escapes msg := by
  -- each of the five conditions says what its member of `conditions` says
  have hfrom' : holdsOf server escapes msg (q.fromTime.map (fromClause tz)).toList =
      ((q.atSeconds.fromTime.map fun t (msg : JournalMessage) =>
        decide (t ≤ msg.timestamp)).toList).all fun c => c msg := by
    unfold atSeconds
    cases htime : q.fromTime with
    | none => rfl
    | some t =>
      have h := holdsOf_time server escapes msg (hfrom t htime) (c := fromClause tz t) rfl
      exact h.trans (Bool.and_true _).symm
  have hto' : holdsOf server escapes msg (q.toTime.map (toClause tz)).toList =
      ((q.atSeconds.toTime.map fun t (msg : JournalMessage) =>
        decide (msg.timestamp ≤ t)).toList).all fun c => c msg := by
    unfold atSeconds
    cases htime : q.toTime with
    | none => rfl
    | some t =>
      have h := holdsOf_time server escapes msg (hto t htime) (c := toClause tz t) rfl
      exact h.trans (Bool.and_true _).symm
  have hmtypes : holdsOf server escapes msg (inClauses tz opensIn_mtype q.mTypes) =
      (if 0 < q.mTypes.length then [fun msg : JournalMessage => decide (msg.mtype ∈ q.mTypes)]
        else []).all fun c => c msg := by
    rw [holdsOf_inClauses server escapes msg opensIn_mtype rfl]
    split_ifs <;> rfl
  have hmgroups : holdsOf server escapes msg (inClauses tz opensIn_mgroup q.mGroups) =
      (if 0 < q.mGroups.length then [fun msg : JournalMessage => decide (msg.mgroup ∈ q.mGroups)]
        else []).all fun c => c msg := by
    rw [holdsOf_inClauses server escapes msg opensIn_mgroup rfl]
    split_ifs <;> rfl
  have hsearch : holdsOf server escapes msg
      (if q.search ≠ "" then [searchClause tz q.searchPattern] else []) =
      (if q.search ≠ "" then
        [fun msg : JournalMessage =>
          ilike escapes msg.message q.searchPattern || ilike escapes msg.name q.searchPattern]
      else []).all fun c => c msg := by
    split_ifs
    · rw [holdsOf_searchClause]
      exact (Bool.and_true _).symm
    · rfl
  unfold clauses JournalQueryParams.selects JournalQueryParams.conditions
  rw [holdsOf_append, holdsOf_append, holdsOf_append, holdsOf_append, hfrom', hto', hmtypes,
    hmgroups, hsearch, List.all_append, List.all_append, List.all_append, List.all_append]
  rfl

end

/-! ### The statements -/

/-- The `WHERE` that the server is given. -/
def whereText : List Char :=
  if clauses tz q = [] then []
  else "WHERE ".toList ++ " AND ".toList.intercalate ((clauses tz q).map fun c => c.clause.text)

theorem clauses_eq_nil_iff : clauses tz q = [] ↔ q.conditions = [] := by
  rw [← map_query_clauses tz, List.map_eq_nil_iff]

theorem binds_whereClause : Binds tz q.whereClause q.args (whereText tz q) := by
  unfold whereClause whereText
  rw [← flatMap_args_clauses tz]
  by_cases hcs : clauses tz q = []
  · rw [if_neg (by simp [(clauses_eq_nil_iff tz q).mp hcs]), if_pos hcs, hcs]
    exact Binds.unmarked_text (by decide)
  · have hne : q.conditions ≠ [] := mt (clauses_eq_nil_iff tz q).mpr hcs
    have hwhere : Binds tz "WHERE ".toList [] "WHERE ".toList := Binds.unmarked_text (by decide)
    have hand : Unmarked " AND ".toList := by decide
    have hall := Binds.intercalate hand (fun c : BoundClause tz => c.binds) (clauses tz q)
    rw [if_pos (List.length_pos_iff.mpr hne), if_neg hcs, ← map_query_clauses tz]
    exact hwhere.append hall

theorem lexes_whereText : Lexes (whereText tz q)
    (SqlCondition.whereTokens ((clauses tz q).map BoundClause.clause)) := by
  unfold whereText SqlCondition.whereTokens
  by_cases hcs : clauses tz q = []
  · rw [if_pos hcs, if_pos (by simp [hcs])]
    exact fun _ => rfl
  · have hwhere : Closed "WHERE ".toList [.word "WHERE".toList] := fun _ => rfl
    have hall := SqlCondition.lexes_clauses ((clauses tz q).map BoundClause.clause)
    rw [List.map_map] at hall
    rw [if_neg hcs, if_neg (by simpa using hcs)]
    exact hwhere.append_lexes hall

/-- What stands behind the condition of `dataQuery`. -/
def pageTokens : List Token :=
  [.word "ORDER".toList, .word "BY".toList, .word "timestamp".toList, .word "DESC".toList,
    .word "LIMIT".toList, .word (Nat.toDigits 10 (rowLimit q.limit)), .word "OFFSET".toList,
    .word (Nat.toDigits 10 q.offset)]

theorem lexes_pageText : Lexes q.pageText q.pageTokens := by
  have horder : Lexes "ORDER BY timestamp DESC\n\t\tLIMIT".toList
      [.word "ORDER".toList, .word "BY".toList, .word "timestamp".toList, .word "DESC".toList,
        .word "LIMIT".toList] := fun _ => rfl
  have hoffset : Lexes "OFFSET".toList [.word "OFFSET".toList] := fun _ => rfl
  have hend : Lexes ['\t'] [] := fun _ => rfl
  have hnumber := (SqlCondition.lexes_toDigits q.offset).blank (b := '\n') rfl hend
  exact horder.blank rfl
    ((SqlCondition.lexes_toDigits _).blank rfl (hoffset.blank rfl hnumber))

theorem ne_of_mem_pageTokens : ∀ t ∈ q.pageTokens, t ≠ .word "WHERE".toList := by
  have hnumber : ∀ n, Token.word (Nat.toDigits 10 n) ≠ .word "WHERE".toList := by
    intro n h
    -- a digit would be a letter
    have hmem : 'W' ∈ Nat.toDigits 10 n := Token.word.inj h ▸ (by decide)
    exact absurd (Nat.isDigit_of_mem_toDigits (by decide) (by decide) hmem) (by decide)
  unfold pageTokens
  simp only [List.forall_mem_cons]
  exact ⟨by decide, by decide, by decide, by decide, by decide, hnumber _, by decide, hnumber _,
    List.forall_mem_nil _⟩

theorem unmarked_pageText : Unmarked q.pageText := by
  have horder : Unmarked "ORDER BY timestamp DESC\n\t\tLIMIT".toList := by decide
  have hoffset : Unmarked "OFFSET".toList := by decide
  have hblank : Unmarked [' '] := by decide
  have hend : Unmarked ['\n', '\t'] := by decide
  have hrows := hblank.append ((ClickHouse.unmarked_toDigits q.offset).append hend)
  have hlimit := (ClickHouse.unmarked_toDigits (rowLimit q.limit)).append
    (hblank.append (hoffset.append hrows))
  exact horder.append (hblank.append hlimit)

/-- The name of a database or a table. -/
def IsName (w : List Char) : Prop := ∀ c ∈ w, c.isAlphanum || c = '_'

instance (w : List Char) : Decidable (IsName w) := List.decidableBAll _ w

section

variable {tz} {database table : List Char}

theorem plain_name (hdatabase : IsName database) (htable : IsName table) :
    SqlCondition.Plain (database ++ '.' :: table) := by
  refine SqlCondition.plain_of_forall (p := fun c => c.isAlphanum || c = '_' || c = '.') ?_
    (by decide)
  intro c hc
  rcases List.mem_append.mp hc with hc | hc
  · rw [hdatabase c hc]
    rfl
  · rcases List.mem_cons.mp hc with rfl | hc
    · rfl
    · rw [htable c hc]
      rfl

theorem unmarked_name (hdatabase : IsName database) (htable : IsName table) :
    Unmarked (database ++ '.' :: table) := by
  have hpart : ∀ {w}, IsName w → Unmarked w := fun h =>
    ClickHouse.unmarked_of_forall h (by decide)
  have hpoint : Unmarked ['.'] := by decide
  exact (hpart hdatabase).append (hpoint.append (hpart htable))

/-- A name with a point in it is no keyword. -/
theorem name_ne {w : List Char} (hw : '.' ∉ w) :
    Token.word (database ++ '.' :: table) ≠ .word w := by
  intro h
  exact hw (Token.word.inj h ▸ List.mem_append_right database List.mem_cons_self)

/-- Neither is anything in front of the condition. -/
theorem ne_of_mem_before {before : List Token}
    (hbefore : ∀ t ∈ before, t ≠ .word "WHERE".toList ∧ t ≠ .word "ORDER".toList) :
    ∀ t ∈ before ++ [.word (database ++ '.' :: table)],
      t ≠ .word "WHERE".toList ∧ t ≠ .word "ORDER".toList := by
  intro t ht
  rcases List.mem_append.mp ht with ht | ht
  · exact hbefore t ht
  · obtain rfl := List.mem_singleton.mp ht
    exact ⟨name_ne (by decide), name_ne (by decide)⟩

/-- The server reads the condition `c` and then `rest` in what becomes of a query. -/
def ReadsAs (paramsProtocolSupport : Bool) (tz query : List Char) (args : List QueryArg)
    (c : SqlCondition.Condition) (rest : List Token) : Prop :=
  ∃ text, ClickHouse.bindQueryOrAppendParameters paramsProtocolSupport tz query args = .ok text ∧
    SqlCondition.read text = some (c, rest)

end

/-- A time with a fraction, two types and a search that look like SQL. -/
def quotedSearch : JournalQuery where
  fromTime := some (.utc ⟨2025, 3, 1, 12, 0, 0, 500000000, by decide⟩)
  toTime := some (.unnamed 1740830401 0)
  mTypes := ["Alarm", "Warning') OR 1=1 --"]
  mGroups := []
  search := "\\' OR name = ?"
  limit := 100
  offset := 0

end JournalQuery

end UnisetPanel
