/-
  `Csv` — comma separated values: writing records, and reading them back.

  A field is written as it is or between quotes, with its own quotes doubled.
  Which fields are quoted is the writer's choice (`Quoting`), as long as those
  are in which a comma, a quote or the end of a line stands.

  The reader goes through the text letter by letter.  Whatever the choice, it
  reads the records that were written (`read_write`).
-/
import Mathlib.Data.List.Basic

namespace UnisetPanel.Csv

/-- A field and a record. -/
abbrev Field := List Char

/-- A letter that may stand in a field without quotes. -/
def Plain (c : Char) : Prop := c ≠ ',' ∧ c ≠ '"' ∧ c ≠ '\n'

instance (c : Char) : Decidable (Plain c) := inferInstanceAs (Decidable (_ ∧ _))

/-- Which fields a writer puts between quotes: all that need it, and any others. -/
structure Quoting where
  quotes : Field → Bool
  plain : ∀ f, quotes f = false → ∀ c ∈ f, Plain c

/-! ### Writing -/

/-- A field with its quotes doubled. -/
def double (f : Field) : List Char := f.flatMap fun c => if c = '"' then ['"', '"'] else [c]

variable (q : Quoting)

/-- A field. -/
def writeField (f : Field) : List Char := if q.quotes f then '"' :: (double f ++ ['"']) else f

/-- A record: its fields with commas between, and the end of the line. -/
def writeRecord (r : List Field) : List Char := [','].intercalate (r.map (writeField q)) ++ ['\n']

/-- Records. -/
def write (rs : List (List Field)) : List Char := rs.flatMap (writeRecord q)

/-! ### Reading -/

/-- Where the reader is: at the start of a field, inside one without quotes, inside one with quotes,
or after a quote inside the latter. -/
inductive Mode where
  | start
  | plain
  | quoted
  | quote
  deriving DecidableEq

/-- What has been read: whole records, the fields of the current one, the letters of the current
field. -/
structure Reader where
  records : List (List Field)
  fields : List Field
  field : Field
  mode : Mode
  deriving DecidableEq

namespace Reader

variable (s : Reader)

/-- The current field is whole. -/
def endField : Reader := { s with fields := s.fields ++ [s.field], field := [], mode := .start }

/-- The current field and record are whole. -/
def endRecord : Reader :=
  ⟨s.records ++ [s.fields ++ [s.field]], [], [], .start⟩

/-- The letter belongs to the current field. -/
def take (c : Char) (mode : Mode) : Reader := { s with field := s.field ++ [c], mode := mode }

/-- One letter; `none` where it may not stand. -/
def next (s : Reader) (c : Char) : Option Reader :=
  match s.mode with
  | .quoted => some (if c = '"' then { s with mode := .quote } else s.take c .quoted)
  | .quote =>
    if c = '"' then some (s.take c .quoted)
    else if c = ',' then some s.endField
    else if c = '\n' then some s.endRecord
    else none
  | .start =>
    if c = '"' then some { s with mode := .quoted }
    else if c = ',' then some s.endField
    else if c = '\n' then some s.endRecord
    else some (s.take c .plain)
  | .plain =>
    if c = '"' then none
    else if c = ',' then some s.endField
    else if c = '\n' then some s.endRecord
    else some (s.take c .plain)

/-- Letters. -/
def nextAll (s : Reader) (text : List Char) : Option Reader := text.foldlM next s

theorem nextAll_append (s : Reader) (u v : List Char) :
    s.nextAll (u ++ v) = (s.nextAll u).bind fun t => t.nextAll v := List.foldlM_append

@[simp] theorem nextAll_cons (s : Reader) (c : Char) (u : List Char) :
    s.nextAll (c :: u) = (s.next c).bind fun t => t.nextAll u := rfl

@[simp] theorem nextAll_nil (s : Reader) : s.nextAll [] = some s := rfl

end Reader

/-- The records of a text; each ends with its line. -/
def read (text : List Char) : Option (List (List Field)) :=
  ((⟨[], [], [], .start⟩ : Reader).nextAll text).bind fun s =>
    if s.mode = .start ∧ s.fields = [] then some s.records else none

/-! ### What is written is read -/

section

open Reader

variable {records : List (List Field)} {fields : List Field} {g : Field}

/-- A quoted field up to its last quote. -/
theorem nextAll_double (f : Field) :
    (⟨records, fields, g, .quoted⟩ : Reader).nextAll (double f) =
      some ⟨records, fields, g ++ f, .quoted⟩ := by
  induction f generalizing g with
  | nil => simp [double]
  | cons c f ih =>
    have hcons : double (c :: f) = (if c = '"' then ['"', '"'] else [c]) ++ double f := rfl
    rw [hcons, nextAll_append]
    have hone : (⟨records, fields, g, .quoted⟩ : Reader).nextAll
        (if c = '"' then ['"', '"'] else [c]) = some ⟨records, fields, g ++ [c], .quoted⟩ := by
      by_cases hc : c = '"'
      · simp [hc, next, take]
      · simp [hc, next, take]
    rw [hone, Option.bind_some, ih, List.append_assoc, List.singleton_append]

/-- A field without quotes. -/
theorem nextAll_plain {f : Field} (hf : ∀ c ∈ f, Plain c) :
    (⟨records, fields, g, .plain⟩ : Reader).nextAll f = some ⟨records, fields, g ++ f, .plain⟩ := by
  induction f generalizing g with
  | nil => simp
  | cons c f ih =>
    obtain ⟨hcomma, hquote, hline⟩ := hf c List.mem_cons_self
    rw [nextAll_cons]
    simp only [next, hcomma, hquote, hline, if_false, take, Option.bind_some]
    rw [ih fun d hd => hf d (List.mem_cons_of_mem c hd), List.append_assoc, List.singleton_append]

/-- After a written field, the letter that ends it does so. -/
theorem nextAll_writeField (f : Field) {c : Char} (hc : c = ',' ∨ c = '\n') :
    (⟨records, fields, [], .start⟩ : Reader).nextAll (writeField q f ++ [c]) =
      (⟨records, fields, f, .start⟩ : Reader).next c := by
  have hquote : c ≠ '"' := by rcases hc with rfl | rfl <;> decide
  unfold writeField
  split_ifs with hq
  · -- the opening quote, the doubled letters, the closing quote, and `c`
    rw [List.cons_append, nextAll_cons, List.append_assoc, List.singleton_append]
    show ((some ⟨records, fields, [], .quoted⟩ : Option Reader).bind _) = _
    rw [Option.bind_some, nextAll_append, nextAll_double, Option.bind_some, nextAll_cons]
    show ((some ⟨records, fields, [] ++ f, .quote⟩ : Option Reader).bind _) = _
    rw [Option.bind_some, nextAll_cons, List.nil_append]
    rcases hc with rfl | rfl <;> simp [next, endField, endRecord]
  · have hplain := q.plain f (Bool.eq_false_iff.mpr hq)
    cases f with
    | nil =>
      rw [List.nil_append, nextAll_cons]
      cases hn : (⟨records, fields, [], .start⟩ : Reader).next c <;> rfl
    | cons d f =>
      obtain ⟨hcomma, hq', hline⟩ := hplain d List.mem_cons_self
      rw [List.cons_append, nextAll_cons]
      simp only [next, hcomma, hq', hline, if_false, take, Option.bind_some, List.nil_append]
      rw [nextAll_append, nextAll_plain fun e he => hplain e (List.mem_cons_of_mem d he),
        Option.bind_some, nextAll_cons, List.singleton_append]
      rcases hc with rfl | rfl <;> simp [next, endField, endRecord]

/-- The rest of a record. -/
theorem nextAll_fields (f : Field) (r : List Field) :
    (⟨records, fields, [], .start⟩ : Reader).nextAll
      ([','].intercalate ((f :: r).map (writeField q)) ++ ['\n']) =
      some ⟨records ++ [fields ++ f :: r], [], [], .start⟩ := by
  induction r generalizing f fields with
  | nil =>
    rw [List.map_singleton, List.intercalate_singleton, nextAll_writeField q f (.inr rfl)]
    rfl
  | cons d r ih =>
    rw [List.map_cons, List.map_cons, List.intercalate_cons_cons, List.append_assoc,
      nextAll_append, nextAll_writeField q f (.inl rfl)]
    show ((some ⟨records, fields ++ [f], [], .start⟩ : Option Reader).bind _) = _
    rw [Option.bind_some, ← List.map_cons, ih, List.append_assoc, List.singleton_append]

theorem nextAll_writeRecord {r : List Field} (hr : r ≠ []) :
    (⟨records, [], [], .start⟩ : Reader).nextAll (writeRecord q r) =
      some ⟨records ++ [r], [], [], .start⟩ := by
  obtain ⟨f, r, rfl⟩ := List.exists_cons_of_ne_nil hr
  exact nextAll_fields q f r

theorem nextAll_write {rs : List (List Field)} (hrs : ∀ r ∈ rs, r ≠ []) :
    (⟨records, [], [], .start⟩ : Reader).nextAll (write q rs) =
      some ⟨records ++ rs, [], [], .start⟩ := by
  induction rs generalizing records with
  | nil => simp [write]
  | cons r rs ih =>
    have hcons : write q (r :: rs) = writeRecord q r ++ write q rs := rfl
    rw [hcons, nextAll_append, nextAll_writeRecord q (hrs r List.mem_cons_self), Option.bind_some,
      ih fun s hs => hrs s (List.mem_cons_of_mem r hs), List.append_assoc, List.singleton_append]

/-- **What is written is read back**: any records of at least one field each. -/
theorem read_write {rs : List (List Field)} (hrs : ∀ r ∈ rs, r ≠ []) :
    read (write q rs) = some rs := by
  unfold read
  rw [nextAll_write q hrs]
  simp

end

end UnisetPanel.Csv
