/-
  `SqlCondition` — the conditions of SQL statements, as texts.

  A text is cut into words, signs and texts between quotes (`lex`), in which a
  backslash stands before a quote or a backslash, and a quote may be doubled.
  The tokens are read as a conjunction of disjunctions of comparisons (`parse`).
  Of SQL this is what stands behind `WHERE` in simple queries: `AND`, `OR`
  between parentheses, comparisons of a column with a literal or with a function
  of literals, and `IN`.  A `Clause` is a part of such a text together with what
  it is read as wherever it stands; so joining clauses joins what they say
  (`parse_where`).
-/
import Mathlib.Data.List.TakeWhile
import Mathlib.Data.Nat.Notation

namespace UnisetPanel.SqlCondition

/-! ### Words, texts and signs -/

inductive Token where
  | word (w : List Char)
  | text (w : List Char)
  | sign (c : Char)
  deriving DecidableEq, Repr

/-- The signs; one of two characters is two of them. -/
def isSign (c : Char) : Bool :=
  c = '(' || c = ')' || c = ',' || c = '?' || c = '=' || c = '<' || c = '>'

/-- The blanks. -/
def isBlank (c : Char) : Bool := c = ' ' || c = '\t' || c = '\n'

/-- Where a text is cut: in a word, which may be empty; in a text between quotes, behind a backslash
in it, or behind a quote, which ends it if it is not doubled; behind an escape that is not known. -/
inductive Place where
  | word (w : List Char)
  | text (w : List Char)
  | escape (w : List Char)
  | quote (w : List Char)
  | lost

/-- The tokens so far, the last one first. -/
structure Lexer where
  tokens : List Token
  place : Place

namespace Lexer

/-- The tokens, if the text may end here. -/
def ends (l : Lexer) : Option (List Token) :=
  match l.place with
  | .word w => some (if w = [] then l.tokens else .word w :: l.tokens)
  | .quote w => some (.text w :: l.tokens)
  | .text _ | .escape _ | .lost => none

/-- A character outside of quotes. -/
def outside (ts : List Token) (w : List Char) (c : Char) : Lexer :=
  let done := if w = [] then ts else .word w :: ts
  if isBlank c then ⟨done, .word []⟩
  else if isSign c then ⟨.sign c :: done, .word []⟩
  else if c = '\'' then ⟨done, .text []⟩
  else ⟨ts, .word (w ++ [c])⟩

/-- One character. -/
def next (l : Lexer) (c : Char) : Lexer :=
  match l.place with
  | .word w => outside l.tokens w c
  | .text w =>
    ⟨l.tokens, if c = '\'' then .quote w else if c = '\\' then .escape w else .text (w ++ [c])⟩
  | .escape w => ⟨l.tokens, if c = '\'' ∨ c = '\\' then .text (w ++ [c]) else .lost⟩
  | .quote w =>
    if c = '\'' then ⟨l.tokens, .text (w ++ [c])⟩ else outside (.text w :: l.tokens) [] c
  | .lost => l

/-- A text. -/
def nextAll (l : Lexer) (s : List Char) : Lexer := s.foldl next l

theorem nextAll_append (l : Lexer) (s t : List Char) :
    l.nextAll (s ++ t) = (l.nextAll s).nextAll t := List.foldl_append

theorem outside_blank (ts : List Token) (w : List Char) {b : Char} (hb : isBlank b = true) :
    outside ts w b = ⟨if w = [] then ts else .word w :: ts, .word []⟩ := if_pos hb

theorem outside_sign (ts : List Token) (w : List Char) {c : Char} (hc : isSign c = true) :
    outside ts w c = ⟨.sign c :: if w = [] then ts else .word w :: ts, .word []⟩ := by
  have hblank : isBlank c = false := by
    rw [Bool.eq_false_iff]
    intro hblank
    simp only [isBlank, Bool.or_eq_true, decide_eq_true_eq] at hblank
    rcases hblank with (rfl | rfl) | rfl <;> exact absurd hc (by decide)
  unfold outside
  rw [hblank, hc]
  rfl

/-- Behind a text that may end, a character but for a quote stands outside. -/
theorem next_eq_outside {l : Lexer} {ts : List Token} (h : l.ends = some ts) {c : Char}
    (hquote : c ≠ '\'') :
    ∃ us w, l.next c = outside us w c ∧ ts = if w = [] then us else .word w :: us := by
  obtain ⟨tokens, place⟩ := l
  cases place with
  | word w => exact ⟨tokens, w, rfl, (Option.some.inj h).symm⟩
  | quote w => exact ⟨.text w :: tokens, [], if_neg hquote, (Option.some.inj h).symm⟩
  | text w => cases h
  | escape w => cases h
  | lost => cases h

/-- A blank ends it. -/
theorem next_blank {l : Lexer} {ts : List Token} (h : l.ends = some ts) {b : Char}
    (hb : isBlank b = true) : l.next b = ⟨ts, .word []⟩ := by
  have hquote : b ≠ '\'' := by
    rintro rfl
    exact absurd hb (by decide)
  obtain ⟨us, w, hnext, rfl⟩ := next_eq_outside h hquote
  exact hnext.trans (outside_blank us w hb)

/-- So does a sign. -/
theorem next_sign {l : Lexer} {ts : List Token} (h : l.ends = some ts) {c : Char}
    (hc : isSign c = true) : l.next c = ⟨.sign c :: ts, .word []⟩ := by
  have hquote : c ≠ '\'' := by
    rintro rfl
    exact absurd hc (by decide)
  obtain ⟨us, w, hnext, rfl⟩ := next_eq_outside h hquote
  exact hnext.trans (outside_sign us w hc)

end Lexer

/-- The tokens of a text, if its quotes are closed. -/
def lex (s : List Char) : Option (List Token) :=
  ((Lexer.mk [] (.word [])).nextAll s).ends.map List.reverse

/-! ### Reading a condition -/

/-- The comparisons. -/
inductive Op where
  | ge
  | le
  | eq
  | ilike
  deriving DecidableEq, Repr

/-- What a column is compared with. -/
inductive Expr where
  | literal (t : Token)
  | call (f : List Char) (args : List Token)
  deriving DecidableEq, Repr

/-- A comparison. -/
inductive Atom where
  | compare (op : Op) (column : List Char) (e : Expr)
  | isIn (column : List Char) (literals : List Token)
  deriving DecidableEq, Repr

/-- A conjunction of disjunctions. -/
abbrev Condition := List (List Atom)

/-- `>=`, `<=`, `=` and `ILIKE`. -/
def operator : List Token → Option (Op × List Token)
  | .sign '>' :: .sign '=' :: ts => some (.ge, ts)
  | .sign '<' :: .sign '=' :: ts => some (.le, ts)
  | .sign '=' :: ts => some (.eq, ts)
  | .word w :: ts => if w = "ILIKE".toList then some (.ilike, ts) else none
  | _ => none

/-- A word or a text. -/
def literal : Token → Option Token
  | .sign _ => none
  | t => some t

/-- Literals with commas between them, up to the parenthesis. -/
def literals : List Token → Option (List Token × List Token)
  | t :: .sign ')' :: ts => (literal t).map fun t => ([t], ts)
  | t :: .sign ',' :: ts =>
    (literal t).bind fun t => (literals ts).map fun r => (t :: r.1, r.2)
  | _ => none

/-- A literal or a function of literals. -/
def expr : List Token → Option (Expr × List Token)
  | .word f :: .sign '(' :: ts => (literals ts).map fun r => (.call f r.1, r.2)
  | t :: ts => (literal t).map fun t => (.literal t, ts)
  | [] => none

/-- A comparison. -/
def atom : List Token → Option (Atom × List Token)
  | .word column :: ts =>
    match operator ts with
    | some (op, ts) => (expr ts).map fun r => (.compare op column r.1, r.2)
    | none =>
      match ts with
      | .word w :: .sign '(' :: ts =>
        if w = "IN".toList then (literals ts).map fun r => (.isIn column r.1, r.2) else none
      | _ => none
  | _ => none

/-- Comparisons with `OR` between them, up to the parenthesis. -/
def disjunction : ℕ → List Token → Option (List Atom × List Token)
  | 0, _ => none
  | n + 1, ts => (atom ts).bind fun r =>
    match r.2 with
    | .sign ')' :: ts => some ([r.1], ts)
    | .word w :: ts =>
      if w = "OR".toList then (disjunction n ts).map fun q => (r.1 :: q.1, q.2) else none
    | _ => none

/-- A comparison, or several between parentheses. -/
def factor (ts : List Token) : Option (List Atom × List Token) :=
  match ts with
  -- there are fewer comparisons than tokens
  | .sign '(' :: ts => disjunction ts.length ts
  | ts => (atom ts).map fun r => ([r.1], r.2)

/-- Factors with `AND` between them. -/
def conjunction : ℕ → List Token → Option (Condition × List Token)
  | 0, _ => none
  | n + 1, ts => (factor ts).bind fun r =>
    if r.2.head? = some (.word "AND".toList) then
      (conjunction n r.2.tail).map fun q => (r.1 :: q.1, q.2)
    else some ([r.1], r.2)

/-- The condition of a statement, and what stands behind it; without a `WHERE` the condition is
empty. -/
def parse (ts : List Token) : Option (Condition × List Token) :=
  match ts.dropWhile (· ≠ .word "WHERE".toList) with
  | [] => some ([], ts.dropWhile (· ≠ .word "ORDER".toList))
  | _ :: ts => conjunction (ts.length + 1) ts

/-- The same of a text. -/
def read (s : List Char) : Option (Condition × List Token) := (lex s).bind parse

/-! ### What a condition says -/

section

variable {V : Type*} (compare : Op → V → V → Bool) (value : Expr → Option V)
  (row : List Char → Option V)

/-- What a comparison says of a row; nothing is equal to a value that there is not. -/
def Atom.holds : Atom → Bool
  | .compare op column e => (row column).any fun x => (value e).any (compare op x)
  | .isIn column ts =>
    (row column).any fun x => ts.any fun t => (value (.literal t)).any (compare .eq x)

/-- What a condition says of a row. -/
def Condition.holds (c : Condition) : Bool := c.all fun f => f.any (Atom.holds compare value row)

end

/-! ### Texts that are joined -/

/-- The text is cut into these tokens wherever a word may begin, if it may end behind it. -/
def Lexes (s : List Char) (ts : List Token) : Prop :=
  ∀ acc, ((Lexer.mk acc (.word [])).nextAll s).ends = some (ts.reverse ++ acc)

/-- The same, whatever follows. -/
def Closed (s : List Char) (ts : List Token) : Prop :=
  ∀ acc, (Lexer.mk acc (.word [])).nextAll s = ⟨ts.reverse ++ acc, .word []⟩

variable {s t : List Char} {ts us : List Token}

theorem Lexes.lex (h : Lexes s ts) : lex s = some ts := by
  unfold SqlCondition.lex
  rw [h, List.append_nil, Option.map_some, List.reverse_reverse]

theorem Closed.lexes (h : Closed s ts) : Lexes s ts := by
  intro acc
  rw [h]
  rfl

theorem Closed.append (hs : Closed s ts) (ht : Closed t us) : Closed (s ++ t) (ts ++ us) := by
  intro acc
  rw [Lexer.nextAll_append, hs, ht, List.reverse_append, List.append_assoc]

theorem Closed.append_lexes (hs : Closed s ts) (ht : Lexes t us) : Lexes (s ++ t) (ts ++ us) := by
  intro acc
  rw [Lexer.nextAll_append, hs, ht, List.reverse_append, List.append_assoc]

/-- Two texts with a blank between them. -/
theorem Lexes.blank (hs : Lexes s ts) {b : Char} (hb : isBlank b = true) (ht : Lexes t us) :
    Lexes (s ++ b :: t) (ts ++ us) := by
  intro acc
  rw [Lexer.nextAll_append]
  show ((((Lexer.mk acc (.word [])).nextAll s).next b).nextAll t).ends = _
  rw [Lexer.next_blank (hs acc) hb, ht, List.reverse_append, List.append_assoc]

/-- A sign behind a text. -/
theorem Lexes.sign (hs : Lexes s ts) {c : Char} (hc : isSign c = true) :
    Closed (s ++ [c]) (ts ++ [.sign c]) := by
  intro acc
  rw [Lexer.nextAll_append]
  show ((Lexer.mk acc (.word [])).nextAll s).next c = _
  rw [Lexer.next_sign (hs acc) hc, List.reverse_append]
  rfl

/-- A blank more makes no difference. -/
theorem Lexes.cons_blank {b : Char} (hb : isBlank b = true) (ht : Lexes t us) :
    Lexes (b :: t) us := by
  have hempty : Lexes [] [] := fun _ => rfl
  exact hempty.blank hb ht

/-- A text without blanks, signs and quotes. -/
def Plain (w : List Char) : Prop := ∀ c ∈ w, isBlank c = false ∧ isSign c = false ∧ c ≠ '\''

theorem nextAll_plain {w : List Char} (hw : Plain w) (ts : List Token) (v : List Char) :
    (Lexer.mk ts (.word v)).nextAll w = ⟨ts, .word (v ++ w)⟩ := by
  induction w generalizing v with
  | nil => rw [List.append_nil]; rfl
  | cons c w ih =>
    obtain ⟨hblank, hsign, hquote⟩ := hw c List.mem_cons_self
    have hnext : (Lexer.mk ts (.word v)).next c = ⟨ts, .word (v ++ [c])⟩ := by
      show Lexer.outside ts v c = _
      unfold Lexer.outside
      rw [hblank, hsign]
      exact if_neg hquote
    show ((Lexer.mk ts (.word v)).next c).nextAll w = _
    rw [hnext, ih fun x hx => hw x (List.mem_cons_of_mem c hx), List.append_assoc]
    rfl

/-- It is a word. -/
theorem Plain.lexes {w : List Char} (hw : Plain w) (hne : w ≠ []) : Lexes w [.word w] := by
  intro acc
  rw [nextAll_plain hw]
  exact congrArg some (if_neg hne)

/-- A text of characters none of which is a blank, a sign or a quote. -/
theorem plain_of_forall {p : Char → Bool} {w : List Char} (hw : ∀ c ∈ w, p c = true)
    (hp : " \t\n(),?=<>'".toList.any p = false) : Plain w := by
  intro c hc
  have hnot : c ∉ " \t\n(),?=<>'".toList := fun hmem =>
    absurd (hw c hc) (List.any_eq_false.mp hp c hmem)
  simp only [isBlank, isSign, Bool.or_eq_false_iff, decide_eq_false_iff_not]
  have hall : c ≠ ' ' ∧ c ≠ '\t' ∧ c ≠ '\n' ∧ c ≠ '(' ∧ c ≠ ')' ∧ c ≠ ',' ∧ c ≠ '?' ∧ c ≠ '=' ∧
      c ≠ '<' ∧ c ≠ '>' ∧ c ≠ '\'' := by
    simpa using hnot
  grind

/-- A number. -/
theorem plain_toDigits (n : ℕ) : Plain (Nat.toDigits 10 n) :=
  plain_of_forall (fun _ hc => Nat.isDigit_of_mem_toDigits (by decide) (by decide) hc) (by decide)

theorem lexes_toDigits (n : ℕ) : Lexes (Nat.toDigits 10 n) [.word (Nat.toDigits 10 n)] :=
  (plain_toDigits n).lexes Nat.toDigits_ne_nil

/-! ### Clauses -/

/-- A part of a condition: its text, and what it is read as wherever it stands. -/
structure Clause where
  text : List Char
  tokens : List Token
  factor : List Atom
  lexes : Lexes text tokens
  reads : ∀ ts, SqlCondition.factor (tokens ++ ts) = some (factor, ts)

/-- Tokens with commas between them. -/
def commaTokens (ls : List Token) : List Token := [.sign ','].intercalate (ls.map fun t => [t])

theorem commaTokens_cons_cons (l m : Token) (ls : List Token) :
    commaTokens (l :: m :: ls) = l :: .sign ',' :: commaTokens (m :: ls) := by
  unfold commaTokens
  rw [List.map_cons, List.map_cons, List.intercalate_cons_cons]
  rfl

/-- Literals are read up to the parenthesis. -/
theorem literals_commaTokens {ls : List Token} (hne : ls ≠ [])
    (h : ∀ l ∈ ls, literal l = some l) (ts : List Token) :
    literals (commaTokens ls ++ .sign ')' :: ts) = some (ls, ts) := by
  induction ls with
  | nil => exact absurd rfl hne
  | cons l ls ih =>
    have hl := h l List.mem_cons_self
    cases ls with
    | nil =>
      show (literal l).map _ = _
      rw [hl]
      rfl
    | cons m ls =>
      have hrest := ih (List.cons_ne_nil m ls) fun x hx => h x (List.mem_cons_of_mem l hx)
      rw [commaTokens_cons_cons]
      show (literal l).bind (fun t =>
        (literals (commaTokens (m :: ls) ++ .sign ')' :: ts)).map fun r => (t :: r.1, r.2)) = _
      rw [hl, hrest]
      rfl

/-- A function of literals. -/
theorem expr_call (f : List Char) {ls : List Token} (hne : ls ≠ [])
    (h : ∀ l ∈ ls, literal l = some l) (ts : List Token) :
    expr (.word f :: .sign '(' :: (commaTokens ls ++ .sign ')' :: ts)) = some (.call f ls, ts) := by
  show (literals (commaTokens ls ++ .sign ')' :: ts)).map _ = _
  rw [literals_commaTokens hne h]
  rfl

/-- A comparison. -/
theorem atom_compare (column : List Char) {ts us vs : List Token} {op : Op} {e : Expr}
    (hop : operator ts = some (op, us)) (hexpr : expr us = some (e, vs)) :
    atom (.word column :: ts) = some (.compare op column e, vs) := by
  unfold atom
  simp only [hop, hexpr]
  rfl

/-- Texts that are joined with commas. -/
theorem closed_texts {f : List Char → List Char} (hf : ∀ w, Lexes (f w) [.text w])
    {ws : List (List Char)} (hne : ws ≠ []) :
    Closed (",".toList.intercalate (ws.map f) ++ [')'])
      (commaTokens (ws.map .text) ++ [.sign ')']) := by
  induction ws with
  | nil => exact absurd rfl hne
  | cons w ws ih =>
    cases ws with
    | nil => simpa [commaTokens] using (hf w).sign (c := ')') rfl
    | cons v ws =>
      have hall := ((hf w).sign (c := ',') rfl).append (ih (List.cons_ne_nil v ws))
      have htokens : commaTokens ((w :: v :: ws).map .text) ++ [.sign ')'] =
          [.text w] ++ [.sign ','] ++ (commaTokens ((v :: ws).map .text) ++ [.sign ')']) := by
        rw [List.map_cons, List.map_cons, commaTokens_cons_cons]
        rfl
      have htext : ",".toList.intercalate ((w :: v :: ws).map f) ++ [')'] =
          f w ++ [','] ++ (",".toList.intercalate ((v :: ws).map f) ++ [')']) := by
        rw [List.map_cons, List.map_cons, List.intercalate_cons_cons, List.append_assoc]
        rfl
      rw [htokens, htext]
      exact hall

/-- **Clauses among others**: each is read as what it is read as alone. -/
theorem conjunction_intercalate (cs : List Clause) (hcs : cs ≠ []) (n : ℕ) (hn : cs.length ≤ n)
    (rest : List Token) (hrest : rest.head? ≠ some (.word "AND".toList)) :
    conjunction n ([.word "AND".toList].intercalate (cs.map Clause.tokens) ++ rest) =
      some (cs.map Clause.factor, rest) := by
  induction cs generalizing n with
  | nil => exact absurd rfl hcs
  | cons c cs ih =>
    -- whether another clause is read depends on the word that follows this one
    obtain ⟨n, rfl⟩ : ∃ m, n = m + 1 :=
      Nat.exists_eq_add_one.mpr (Nat.lt_of_lt_of_le (Nat.zero_lt_succ _) hn)
    cases cs with
    | nil =>
      rw [List.map_singleton, List.intercalate_singleton, conjunction, c.reads]
      exact if_neg hrest
    | cons d cs =>
      have hind := ih (List.cons_ne_nil d cs) n (Nat.le_of_succ_le_succ hn)
      rw [List.map_cons, List.map_cons, List.intercalate_cons_cons, ← List.map_cons,
        List.append_assoc, List.append_assoc, conjunction, c.reads, Option.bind_some]
      refine (if_pos rfl).trans ?_
      show (conjunction n ([.word "AND".toList].intercalate ((d :: cs).map Clause.tokens) ++
        rest)).map _ = _
      rw [hind]
      rfl

/-- Joined lists are at least as many, with the separators between them. -/
theorem length_le_intercalate {α : Type*} (x : α) (ls : List (List α)) :
    ls.length ≤ ([x].intercalate ls).length + 1 := by
  induction ls with
  | nil => exact Nat.zero_le _
  | cons l ls ih =>
    cases ls with
    | nil => simp
    | cons l' ls =>
      rw [List.intercalate_cons_cons, List.length_append, List.length_append, List.length_singleton,
        List.length_cons]
      omega

/-- The text of a conjunction. -/
theorem lexes_clauses (cs : List Clause) :
    Lexes (" AND ".toList.intercalate (cs.map Clause.text))
      ([.word "AND".toList].intercalate (cs.map Clause.tokens)) := by
  induction cs with
  | nil => exact fun acc => rfl
  | cons c cs ih =>
    cases cs with
    | nil => simpa using c.lexes
    | cons d cs =>
      have hand : Lexes "AND".toList [.word "AND".toList] := fun acc => rfl
      have htext : " AND ".toList.intercalate ((c :: d :: cs).map Clause.text) =
          c.text ++ ' ' :: ("AND".toList ++
            ' ' :: " AND ".toList.intercalate ((d :: cs).map Clause.text)) := by
        rw [List.map_cons, List.map_cons, List.intercalate_cons_cons, List.append_assoc]
        rfl
      have htokens : [Token.word "AND".toList].intercalate ((c :: d :: cs).map Clause.tokens) =
          c.tokens ++ ([.word "AND".toList] ++
            [Token.word "AND".toList].intercalate ((d :: cs).map Clause.tokens)) := by
        rw [List.map_cons, List.map_cons, List.intercalate_cons_cons, List.append_assoc]
      rw [htext, htokens]
      exact c.lexes.blank rfl (hand.blank rfl ih)

/-- The tokens of a `WHERE` of clauses; none without a clause. -/
def whereTokens (cs : List Clause) : List Token :=
  if cs = [] then []
  else .word "WHERE".toList :: [.word "AND".toList].intercalate (cs.map Clause.tokens)

/-- **A condition joined of clauses** says what the clauses say. -/
theorem parse_where (cs : List Clause) {before rest : List Token}
    (hbefore : ∀ t ∈ before, t ≠ .word "WHERE".toList ∧ t ≠ .word "ORDER".toList)
    (hrest : ∀ t ∈ rest, t ≠ .word "WHERE".toList)
    (horder : ∀ t ∈ rest.head?, t = .word "ORDER".toList) :
    parse (before ++ (whereTokens cs ++ rest)) = some (cs.map Clause.factor, rest) := by
  by_cases hcs : cs = []
  · subst hcs
    -- no `WHERE` anywhere, so what follows begins at `ORDER`
    have hnone : (before ++ rest).dropWhile (· ≠ .word "WHERE".toList) = [] := by
      rw [List.dropWhile_eq_nil_iff]
      intro t ht
      rcases List.mem_append.mp ht with ht | ht
      · exact decide_eq_true (hbefore t ht).1
      · exact decide_eq_true (hrest t ht)
    have hsplit : (before ++ rest).dropWhile (· ≠ .word "ORDER".toList) = rest := by
      rw [List.dropWhile_append_of_pos fun t ht => decide_eq_true (hbefore t ht).2]
      cases rest with
      | nil => rfl
      | cons t rest =>
        have ht := horder t rfl
        exact List.dropWhile_cons_of_neg (by simp [ht])
    unfold parse
    show (match (before ++ rest).dropWhile _ with | [] => _ | _ :: ts => _) = _
    rw [hnone]
    show some (_, (before ++ rest).dropWhile _) = _
    rw [hsplit]
    rfl
  -- every clause but the first has an `AND` before it, so the number of tokens is enough
  have hlen := length_le_intercalate (Token.word "AND".toList) (cs.map Clause.tokens)
  rw [List.length_map] at hlen
  have hand : rest.head? ≠ some (.word "AND".toList) := by
    intro h
    exact absurd (horder _ h) (by simp)
  have hconj := conjunction_intercalate cs hcs
    (([.word "AND".toList].intercalate (cs.map Clause.tokens) ++ rest).length + 1)
    (by rw [List.length_append]; omega) rest hand
  have hdrop : (before ++ (whereTokens cs ++ rest)).dropWhile (· ≠ .word "WHERE".toList) =
      Token.word "WHERE".toList ::
        ([Token.word "AND".toList].intercalate (cs.map Clause.tokens) ++ rest) := by
    rw [List.dropWhile_append_of_pos fun t ht => decide_eq_true (hbefore t ht).1, whereTokens,
      if_neg hcs]
    exact List.dropWhile_cons_of_neg (by simp)
  unfold parse
  rw [hdrop]
  exact hconj

end UnisetPanel.SqlCondition
