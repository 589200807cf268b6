/-
  `LikePattern` — the patterns of `LIKE`.

  A pattern is a list of items: one stands for every text, one for every letter,
  and the others for one letter each.  Letters are compared by what `fold` makes
  of them, the letter itself or the same for its two cases.  The texts of a
  pattern are a language, the product of those of its items
  (`accepts_iff_mem_language`), so patterns may be taken apart and put together.
-/
import Mathlib.Computability.Language

namespace UnisetPanel

/-- An item of a pattern. -/
inductive LikeItem where
  /-- `%` -/
  | many
  /-- `_` -/
  | one
  | char (c : Char)
  deriving DecidableEq, Repr

namespace LikePattern

/-! ### Definitions -/

/-- The item of a letter. -/
def item (c : Char) : LikeItem := if c = '%' then .many else if c = '_' then .one else .char c

/-- The letters that a backslash may stand before. -/
def isSpecial (c : Char) : Bool := c = '%' || c = '_' || c = '\\'

/-- The items of a pattern; if `escapes`, a special letter behind a backslash stands for itself. -/
def parse (escapes : Bool) : List Char → List LikeItem
  | [] => []
  | [c] => [item c]
  | c :: d :: p =>
    if escapes && c = '\\' && isSpecial d then .char d :: parse escapes p
    else item c :: parse escapes (d :: p)

variable {κ : Type*}

/-- The pattern holds of the whole text. -/
def accepts [DecidableEq κ] (fold : Char → κ) : List LikeItem → List Char → Bool
  | [], text => text.isEmpty
  | .many :: p, text => text.tails.any (accepts fold p)
  | .one :: _, [] => false
  | .one :: p, _ :: text => accepts fold p text
  | .char _ :: _, [] => false
  | .char c :: p, x :: text => fold x = fold c && accepts fold p text

/-- The texts of an item. -/
def itemLanguage (fold : Char → κ) : LikeItem → Language Char
  | .many => ⊤
  | .one => {text | ∃ x, text = [x]}
  | .char c => {text | ∃ x, fold x = fold c ∧ text = [x]}

/-- The texts of a pattern. -/
def language (fold : Char → κ) (p : List LikeItem) : Language Char :=
  (p.map (itemLanguage fold)).prod

variable {fold : Char → κ}

/-! ### The language of a pattern -/

@[simp] theorem language_nil : language fold [] = 1 := rfl

theorem language_cons (i : LikeItem) (p : List LikeItem) :
    language fold (i :: p) = itemLanguage fold i * language fold p := by
  rw [language, List.map_cons, List.prod_cons, language]

theorem language_append (p q : List LikeItem) :
    language fold (p ++ q) = language fold p * language fold q := by
  rw [language, List.map_append, List.prod_append, language, language]

theorem mem_itemLanguage_many (text : List Char) : text ∈ itemLanguage fold .many := trivial

/-- **What is accepted**: the texts of the language. -/
theorem accepts_iff_mem_language [DecidableEq κ] (p : List LikeItem) (text : List Char) :
    accepts fold p text = true ↔ text ∈ language fold p := by
  induction p generalizing text with
  | nil =>
    rw [language_nil, Language.mem_one, accepts, List.isEmpty_iff]
  | cons i p ih =>
    rw [language_cons, Language.mem_mul]
    cases i with
    | many =>
      rw [accepts, List.any_eq_true]
      constructor
      · rintro ⟨rest, hrest, hp⟩
        obtain ⟨front, rfl⟩ := (List.mem_tails _ _).mp hrest
        exact ⟨front, mem_itemLanguage_many front, rest, (ih rest).mp hp, rfl⟩
      · rintro ⟨front, -, rest, hp, rfl⟩
        exact ⟨rest, (List.mem_tails _ _).mpr (List.suffix_append front rest), (ih rest).mpr hp⟩
    | one =>
      cases text with
      | nil =>
        refine iff_of_false (by simp [accepts]) ?_
        rintro ⟨_, ⟨x, rfl⟩, rest, -, h⟩
        simp at h
      | cons x text =>
        rw [accepts, ih]
        constructor
        · intro hp
          exact ⟨[x], ⟨x, rfl⟩, text, hp, rfl⟩
        · rintro ⟨_, ⟨y, rfl⟩, rest, hp, h⟩
          obtain ⟨-, rfl⟩ := List.cons.inj h
          exact hp
    | char c =>
      cases text with
      | nil =>
        refine iff_of_false (by simp [accepts]) ?_
        rintro ⟨_, ⟨x, -, rfl⟩, rest, -, h⟩
        simp at h
      | cons x text =>
        rw [accepts, Bool.and_eq_true, decide_eq_true_iff, ih]
        constructor
        · rintro ⟨hx, hp⟩
          exact ⟨[x], ⟨x, hx, rfl⟩, text, hp, rfl⟩
        · rintro ⟨_, ⟨y, hy, rfl⟩, rest, hp, h⟩
          obtain ⟨rfl, rfl⟩ := List.cons.inj h
          exact ⟨hy, hp⟩

/-- The empty text. -/
theorem nil_mem_language_iff (p : List LikeItem) :
    [] ∈ language fold p ↔ ∀ i ∈ p, i = .many := by
  induction p with
  | nil => simp [Language.mem_one]
  | cons i p ih =>
    have hi : [] ∈ itemLanguage fold i ↔ i = .many := by
      cases i with
      | many => exact iff_of_true (mem_itemLanguage_many []) rfl
      | one => exact iff_of_false (fun ⟨x, h⟩ => by simp at h) (by simp)
      | char c => exact iff_of_false (fun ⟨x, _, h⟩ => by simp at h) (by simp)
    rw [language_cons, List.forall_mem_cons, ← ih, ← hi, Language.mem_mul]
    constructor
    · rintro ⟨front, hfront, rest, hrest, h⟩
      obtain ⟨rfl, rfl⟩ := List.append_eq_nil_iff.mp h
      exact ⟨hfront, hrest⟩
    · rintro ⟨hfront, hrest⟩
      exact ⟨[], hfront, [], hrest, rfl⟩

/-- **No pattern is empty**: some text is of it. -/
theorem exists_mem_language (p : List LikeItem) : ∃ text, text ∈ language fold p := by
  induction p with
  | nil => exact ⟨[], Language.nil_mem_one⟩
  | cons i p ih =>
    obtain ⟨rest, hrest⟩ := ih
    have hi : ∃ text, text ∈ itemLanguage fold i := by
      cases i with
      | many => exact ⟨[], mem_itemLanguage_many []⟩
      | one => exact ⟨['x'], 'x', rfl⟩
      | char c => exact ⟨[c], c, rfl, rfl⟩
    obtain ⟨front, hfront⟩ := hi
    rw [language_cons]
    exact ⟨front ++ rest, Language.append_mem_mul hfront hrest⟩

/-- Items that stand for every text stand for every text together. -/
theorem mem_language_of_forall_many {p : List LikeItem} (hp : ∀ i ∈ p, i = .many) (hne : p ≠ [])
    (text : List Char) : text ∈ language fold p := by
  cases p with
  | nil => exact absurd rfl hne
  | cons i p =>
    obtain ⟨rfl, hrest⟩ := List.forall_mem_cons.mp hp
    have hnil : [] ∈ language fold p := (nil_mem_language_iff p).mpr hrest
    rw [language_cons, Language.mem_mul]
    exact ⟨text, mem_itemLanguage_many text, [], hnil, List.append_nil text⟩

/-- Letters stand for the texts with these letters. -/
theorem mem_language_map_char_iff (part text : List Char) :
    text ∈ language fold (part.map .char) ↔ text.map fold = part.map fold := by
  induction part generalizing text with
  | nil => rw [List.map_nil, language_nil, Language.mem_one, List.map_nil, List.map_eq_nil_iff]
  | cons c part ih =>
    rw [List.map_cons, language_cons, Language.mem_mul, List.map_cons, List.map_eq_cons_iff]
    constructor
    · rintro ⟨_, ⟨x, hx, rfl⟩, rest, hrest, rfl⟩
      exact ⟨x, rest, rfl, hx, (ih rest).mp hrest⟩
    · rintro ⟨x, rest, rfl, hx, hrest⟩
      exact ⟨[x], ⟨x, hx, rfl⟩, rest, (ih rest).mpr hrest, rfl⟩

/-- **Letters between two `%`** are searched for. -/
theorem mem_language_search_iff (part text : List Char) :
    text ∈ language fold (.many :: (part.map .char ++ [.many])) ↔
      part.map fold <:+: text.map fold := by
  rw [language_cons, language_append, Language.mem_mul]
  constructor
  · rintro ⟨front, -, _, hmem, rfl⟩
    obtain ⟨middle, hmiddle, back, -, rfl⟩ := Language.mem_mul.mp hmem
    rw [mem_language_map_char_iff] at hmiddle
    refine ⟨front.map fold, back.map fold, ?_⟩
    rw [← hmiddle, List.map_append, List.map_append, List.append_assoc]
  · rintro ⟨front, back, h⟩
    rw [List.append_assoc, eq_comm, List.map_eq_append_iff] at h
    obtain ⟨front, rest, rfl, -, hrest⟩ := h
    obtain ⟨middle, back, rfl, hmiddle, -⟩ := List.map_eq_append_iff.mp hrest
    have hback : back ∈ language fold [.many] :=
      mem_language_of_forall_many (by simp) (by simp) back
    exact ⟨front, mem_itemLanguage_many front, _,
      Language.append_mem_mul ((mem_language_map_char_iff _ _).mpr hmiddle) hback, rfl⟩

/-! ### Reading a pattern -/

theorem item_eq_many_iff (c : Char) : item c = .many ↔ c = '%' := by
  unfold item
  split_ifs with h h' <;> simp [h]

theorem item_of_not_isSpecial {c : Char} (h : isSpecial c = false) : item c = .char c := by
  simp only [isSpecial, Bool.or_eq_false_iff, decide_eq_false_iff_not] at h
  rw [item, if_neg h.1.1, if_neg h.1.2]

/-- **Every item stands for every text** exactly if every letter is `%`: an escaped letter stands
for itself. -/
theorem forall_parse_many_iff (escapes : Bool) (p : List Char) :
    (∀ i ∈ parse escapes p, i = .many) ↔ ∀ c ∈ p, c = '%' := by
  induction p using parse.induct escapes with
  | case1 => simp [parse]
  | case2 c => simp [parse, item_eq_many_iff]
  | case3 c d p h ih =>
    rw [parse, if_pos h]
    simp only [Bool.and_eq_true, decide_eq_true_iff] at h
    refine iff_of_false (fun hall => ?_) (fun hall => ?_)
    · exact absurd (hall _ List.mem_cons_self) (by simp)
    · have hc := hall c List.mem_cons_self
      rw [h.1.2] at hc
      exact absurd hc (by decide)
  | case4 c d p h ih =>
    rw [parse, if_neg h, List.forall_mem_cons, item_eq_many_iff, ih]
    exact (List.forall_mem_cons (p := (· = '%'))).symm

/-- A pattern without special letters in it, between two `%`. -/
theorem parse_search (escapes : Bool) {part : List Char} (h : ∀ c ∈ part, isSpecial c = false) :
    parse escapes ('%' :: (part ++ ['%'])) = .many :: (part.map .char ++ [.many]) := by
  have hrest : parse escapes (part ++ ['%']) = part.map .char ++ [.many] := by
    induction part with
    | nil => rfl
    | cons c part ih =>
      obtain ⟨hc, hpart⟩ := List.forall_mem_cons.mp h
      have hne : c ≠ '\\' := fun heq => absurd hc (by rw [heq]; decide)
      obtain ⟨d, rest, hd⟩ : ∃ d rest, part ++ ['%'] = d :: rest :=
        List.exists_cons_of_ne_nil (by simp)
      rw [List.cons_append, hd, parse, if_neg (by simp [hne]), ← hd, ih hpart,
        item_of_not_isSpecial hc]
      rfl
  obtain ⟨d, rest, hd⟩ : ∃ d rest, part ++ ['%'] = d :: rest :=
    List.exists_cons_of_ne_nil (by simp)
  rw [hd, parse, if_neg (by simp), ← hd, hrest]
  rfl

end LikePattern

end UnisetPanel
