/-
  `JsonStrings` — JSON texts of strings and of lists of strings, as
  `encoding/json` writes them and as `JSON.parse` reads them.

  The writer escapes what must be escaped, and also what would end a script or
  a line: `<`, `>`, `&` and the two line separators.  So no end of a line ever
  stands in what it writes (`mem_write`), and a reader gets the strings back
  (`read_write`).  A byte of a string that is no character (`none`) is written as
  U+FFFD, and read as that.
-/
import Mathlib.Data.Char
import Mathlib.Data.List.Basic

namespace UnisetPanel.JsonStrings

/-! ### Writing -/

/-- A digit of `hex`. -/
def hexDigit (n : ℕ) : Char := if n < 10 then Char.ofNat (48 + n) else Char.ofNat (87 + n)

/-- `\uXXXX`, of a character of the first plane. -/
def unicodeEscape (c : Char) : List Char :=
  ['\\', 'u', hexDigit (c.toNat / 4096 % 16), hexDigit (c.toNat / 256 % 16),
    hexDigit (c.toNat / 16 % 16), hexDigit (c.toNat % 16)]

/-- The short escapes: the character, and the letter after the backslash. -/
def short (c : Char) : Option Char :=
  if c = '"' then some '"'
  else if c = '\\' then some '\\'
  else if c = '\x08' then some 'b'
  else if c = '\x0c' then some 'f'
  else if c = '\n' then some 'n'
  else if c = '\r' then some 'r'
  else if c = '\t' then some 't'
  else none

/-- The characters that are written as `\uXXXX`. -/
def NeedsUnicode (c : Char) : Prop :=
  c.toNat < 32 ∨ c = '<' ∨ c = '>' ∨ c = '&' ∨ c = '\u2028' ∨ c = '\u2029'

instance (c : Char) : Decidable (NeedsUnicode c) := inferInstanceAs (Decidable (_ ∨ _))

/-- A character of a string. -/
def writeChar (c : Char) : List Char :=
  match short c with
  | some e => ['\\', e]
  | none => if NeedsUnicode c then unicodeEscape c else [c]

/-- The character for a byte that is none. -/
def replacement : Char := '\ufffd'

/-- A character of a string, or a byte of it that is none. -/
def writeRune : Option Char → List Char
  | some c => writeChar c
  | none => unicodeEscape replacement

/-- A string. -/
def writeString (s : List (Option Char)) : List Char := '"' :: (s.flatMap writeRune ++ ['"'])

/-- A list of strings. -/
def write (ss : List (List (Option Char))) : List Char :=
  '[' :: ([','].intercalate (ss.map writeString) ++ [']'])

/-! ### Reading -/

/-- The value of a digit. -/
def hexValue (c : Char) : Option ℕ :=
  if '0' ≤ c ∧ c ≤ '9' then some (c.toNat - 48)
  else if 'a' ≤ c ∧ c ≤ 'f' then some (c.toNat - 87)
  else if 'A' ≤ c ∧ c ≤ 'F' then some (c.toNat - 55)
  else none

/-- The character of a short escape. -/
def unshort (e : Char) : Option Char :=
  if e = '"' ∨ e = '\\' ∨ e = '/' then some e
  else if e = 'b' then some '\x08'
  else if e = 'f' then some '\x0c'
  else if e = 'n' then some '\n'
  else if e = 'r' then some '\r'
  else if e = 't' then some '\t'
  else none

/-- Where the reader is: before the list, after its bracket, in a string, after a backslash, after
some digits of `\uXXXX`, after a string, after a comma, after the list. -/
inductive Mode where
  | start
  | opened
  | string
  | escape
  | unicode (digits value : ℕ)
  | item
  | comma
  | closed
  deriving DecidableEq

/-- The strings that have been read, and the characters of the current one. -/
structure Reader where
  strings : List (List Char)
  text : List Char
  mode : Mode
  deriving DecidableEq

namespace Reader

/-- Blanks that may stand between the parts. -/
def isBlank (c : Char) : Bool := decide (c = ' ' ∨ c = '\n' ∨ c = '\r' ∨ c = '\t')

/-- The next character of the current string. -/
def push (s : Reader) (c : Char) : Reader := { s with text := s.text ++ [c], mode := .string }

/-- One more digit of `\uXXXX`.  (Of two escapes that stand for one character together it makes
none.) -/
def pushDigit (s : Reader) (digits value : ℕ) (c : Char) : Option Reader :=
  (hexValue c).bind fun v =>
    let value := 16 * value + v
    if digits = 3 then (if value.isValidChar then some (s.push (Char.ofNat value)) else none)
    else some { s with mode := .unicode (digits + 1) value }

/-- One character; `none` where it may not stand. -/
def next (s : Reader) (c : Char) : Option Reader :=
  match s.mode with
  | .start => if isBlank c then some s else if c = '[' then some { s with mode := .opened } else none
  | .opened =>
    if isBlank c then some s
    else if c = ']' then some { s with mode := .closed }
    else if c = '"' then some { s with mode := .string } else none
  | .string =>
    if c = '"' then some ⟨s.strings ++ [s.text], [], .item⟩
    else if c = '\\' then some { s with mode := .escape }
    else if c.toNat < 32 then none else some (s.push c)
  | .escape => if c = 'u' then some { s with mode := .unicode 0 0 } else (unshort c).map s.push
  | .unicode digits value => s.pushDigit digits value c
  | .item =>
    if isBlank c then some s
    else if c = ']' then some { s with mode := .closed }
    else if c = ',' then some { s with mode := .comma } else none
  | .comma =>
    if isBlank c then some s else if c = '"' then some { s with mode := .string } else none
  | .closed => if isBlank c then some s else none

/-- Characters. -/
def nextAll (s : Reader) (text : List Char) : Option Reader := text.foldlM next s

theorem nextAll_append (s : Reader) (u v : List Char) :
    s.nextAll (u ++ v) = (s.nextAll u).bind fun t => t.nextAll v := List.foldlM_append

@[simp] theorem nextAll_cons (s : Reader) (c : Char) (u : List Char) :
    s.nextAll (c :: u) = (s.next c).bind fun t => t.nextAll u := rfl

@[simp] theorem nextAll_nil (s : Reader) : s.nextAll [] = some s := rfl

end Reader

/-- The strings of a text that is a list of strings. -/
def read (text : List Char) : Option (List (List Char)) :=
  ((⟨[], [], .start⟩ : Reader).nextAll text).bind fun s =>
    if s.mode = .closed then some s.strings else none

/-! ### What is written is read -/

section

open Reader

variable {strings : List (List Char)} {text : List Char}

theorem hexValue_hexDigit : ∀ n < 16, hexValue (hexDigit n) = some n := by decide

theorem unshort_of_short {c e : Char} (h : short c = some e) : e ≠ 'u' ∧ unshort e = some c := by
  unfold short at h
  split_ifs at h with h1 h2 h3 h4 h5 h6 h7 <;> obtain rfl := Option.some.inj h <;> subst_vars <;>
    decide

/-- The characters that are written as `\uXXXX` have at most four digits. -/
theorem toNat_lt_of_needsUnicode {c : Char} (h : NeedsUnicode c) : c.toNat < 65536 := by
  rcases h with h | rfl | rfl | rfl | rfl | rfl
  · omega
  all_goals decide

theorem nextAll_unicodeEscape {c : Char} (h : c.toNat < 65536) :
    (⟨strings, text, .string⟩ : Reader).nextAll (unicodeEscape c) =
      some ⟨strings, text ++ [c], .string⟩ := by
  -- four digits are enough for a number below 16^4
  have hvalue : 16 * (16 * (16 * (c.toNat / 4096 % 16) + c.toNat / 256 % 16) +
      c.toNat / 16 % 16) + c.toNat % 16 = c.toNat := by omega
  have hdigit := fun n => hexValue_hexDigit (n % 16) (Nat.mod_lt n (by decide))
  have hvalid : c.toNat.isValidChar := c.valid
  simp [unicodeEscape, next, pushDigit, hdigit, hvalue, hvalid, push]

/-- A character of a string. -/
theorem nextAll_writeChar (c : Char) :
    (⟨strings, text, .string⟩ : Reader).nextAll (writeChar c) =
      some ⟨strings, text ++ [c], .string⟩ := by
  unfold writeChar
  split
  · rename_i e he
    obtain ⟨hu, hun⟩ := unshort_of_short he
    simp [next, hu, hun, push]
  · rename_i hnone
    split_ifs with hn
    · exact nextAll_unicodeEscape (toNat_lt_of_needsUnicode hn)
    · have hquote : c ≠ '"' := by rintro rfl; cases hnone
      have hslash : c ≠ '\\' := by rintro rfl; cases hnone
      have hctl : ¬ c.toNat < 32 := fun h => hn (.inl h)
      simp [next, hquote, hslash, hctl, push]

/-- What a string is read as. -/
def readable (s : List (Option Char)) : List Char := s.map (·.getD replacement)

theorem nextAll_writeRune (rune : Option Char) :
    (⟨strings, text, .string⟩ : Reader).nextAll (writeRune rune) =
      some ⟨strings, text ++ [rune.getD replacement], .string⟩ := by
  cases rune with
  | some c => exact nextAll_writeChar c
  | none => exact nextAll_unicodeEscape (by decide)

theorem nextAll_runes (s : List (Option Char)) :
    (⟨strings, text, .string⟩ : Reader).nextAll (s.flatMap writeRune) =
      some ⟨strings, text ++ readable s, .string⟩ := by
  induction s generalizing text with
  | nil => simp [readable]
  | cons c s ih =>
    rw [List.flatMap_cons, nextAll_append, nextAll_writeRune, Option.bind_some, ih,
      List.append_assoc, List.singleton_append]
    rfl

/-- A string, at the start of the list or after a comma. -/
theorem nextAll_writeString (s : List (Option Char)) {mode : Mode}
    (hmode : mode = .opened ∨ mode = .comma) :
    (⟨strings, [], mode⟩ : Reader).nextAll (writeString s) =
      some ⟨strings ++ [readable s], [], .item⟩ := by
  have hopen : (⟨strings, [], mode⟩ : Reader).next '"' = some ⟨strings, [], .string⟩ := by
    rcases hmode with rfl | rfl <;> rfl
  unfold writeString
  rw [nextAll_cons, hopen, Option.bind_some, nextAll_append, nextAll_runes, Option.bind_some]
  rfl

theorem nextAll_items (s : List (Option Char)) (ss : List (List (Option Char))) {mode : Mode}
    (hmode : mode = .opened ∨ mode = .comma) :
    (⟨strings, [], mode⟩ : Reader).nextAll ([','].intercalate ((s :: ss).map writeString)) =
      some ⟨strings ++ (s :: ss).map readable, [], .item⟩ := by
  induction ss generalizing s strings mode with
  | nil =>
    rw [List.map_singleton, List.intercalate_singleton, nextAll_writeString s hmode]
    rfl
  | cons t ss ih =>
    rw [List.map_cons, List.map_cons, List.intercalate_cons_cons, nextAll_append, nextAll_append,
      nextAll_writeString s hmode, Option.bind_some]
    show ((some ⟨strings ++ [readable s], [], .comma⟩ : Option Reader).bind _) = _
    rw [Option.bind_some, ← List.map_cons, ih t (.inr rfl), List.append_assoc,
      List.singleton_append, ← List.map_cons]

/-- **What is written is read back.** -/
theorem read_write (ss : List (List (Option Char))) :
    read (write ss) = some (ss.map readable) := by
  unfold read write
  rw [nextAll_cons]
  show Option.bind (Option.bind (some (⟨[], [], .opened⟩ : Reader)) _) _ = _
  rw [Option.bind_some, nextAll_append]
  cases ss with
  | nil => rfl
  | cons s ss =>
    rw [nextAll_items s ss (.inl rfl), Option.bind_some]
    rfl

/-! ### No line ends in what is written -/

theorem printable_hexDigit : ∀ n < 16, 32 ≤ (hexDigit n).toNat := by decide

theorem printable_short {c e : Char} (h : short c = some e) : 32 ≤ e.toNat := by
  unfold short at h
  split_ifs at h <;> obtain rfl := Option.some.inj h <;> decide

theorem printable_unicodeEscape {c d : Char} (h : d ∈ unicodeEscape c) : 32 ≤ d.toNat := by
  simp only [unicodeEscape, List.mem_cons, List.not_mem_nil, or_false] at h
  rcases h with rfl | rfl | rfl | rfl | rfl | rfl
  · decide
  · decide
  all_goals exact printable_hexDigit _ (Nat.mod_lt _ (by decide))

/-- **No control character stands in what is written.** -/
theorem printable_writeChar {c d : Char} (h : d ∈ writeChar c) : 32 ≤ d.toNat := by
  unfold writeChar at h
  split at h
  · rename_i e he
    rcases List.mem_cons.mp h with rfl | h
    · decide
    · rw [List.mem_singleton.mp h]
      exact printable_short he
  · split_ifs at h with hn
    · exact printable_unicodeEscape h
    · rw [List.mem_singleton.mp h]
      exact Nat.le_of_not_lt fun hlt => hn (.inl hlt)

theorem printable_writeString {s : List (Option Char)} {d : Char} (h : d ∈ writeString s) :
    32 ≤ d.toNat := by
  rcases List.mem_cons.mp h with rfl | h
  · decide
  · rcases List.mem_append.mp h with h | h
    · obtain ⟨rune, -, hd⟩ := List.mem_flatMap.mp h
      cases rune with
      | some c => exact printable_writeChar hd
      | none => exact printable_unicodeEscape hd
    · rw [List.mem_singleton.mp h]
      decide

theorem mem_write {ss : List (List (Option Char))} {d : Char} (h : d ∈ write ss) :
    32 ≤ d.toNat := by
  have hitems : ∀ ss : List (List (Option Char)), ∀ d ∈ [','].intercalate (ss.map writeString),
      32 ≤ d.toNat := by
    intro ss
    induction ss with
    | nil => intro d hd; cases hd
    | cons s ss ih =>
      cases ss with
      | nil =>
        intro d hd
        rw [List.map_singleton, List.intercalate_singleton] at hd
        exact printable_writeString hd
      | cons t ss =>
        intro d hd
        rw [List.map_cons, List.map_cons, List.intercalate_cons_cons] at hd
        rcases List.mem_append.mp hd with hd | hd
        · rcases List.mem_append.mp hd with hd | hd
          · exact printable_writeString hd
          · rw [List.mem_singleton.mp hd]; decide
        · exact ih d hd
  rcases List.mem_cons.mp h with rfl | h
  · decide
  · rcases List.mem_append.mp h with h | h
    · exact hitems ss d h
    · rw [List.mem_singleton.mp h]
      decide

end

end UnisetPanel.JsonStrings
