/-
  `ByteText` — strings of bytes, as Go has them: constants, integers in
  decimal, and cutting at a byte.

  `itoa` writes an integer and `parseInt` reads one, refusing what is no
  integer of 64 bits.  What the first writes the second reads back
  (`parseInt_itoa`), and nothing but digits and a sign is written
  (`mem_itoa`), so that an integer needs no escaping anywhere.
-/
import UnisetPanel.DecimalText

namespace UnisetPanel

/-- A Go string. -/
abbrev Bytes := List UInt8

namespace ByteText

/-! ### Constants -/

/-- The bytes of a text of ASCII characters. -/
def ascii (s : String) : Bytes := s.toList.map fun c => c.toNat.toUInt8

/-! ### Cutting -/

/-- `strings.Cut` at a byte: what is before its first occurrence and what is after it. -/
def cut (sep : UInt8) : Bytes → Bytes × Bytes
  | [] => ([], [])
  | b :: s => if b = sep then ([], s) else (b :: (cut sep s).1, (cut sep s).2)

variable {sep : UInt8}

theorem cut_append {u : Bytes} (h : sep ∉ u) (v : Bytes) : cut sep (u ++ sep :: v) = (u, v) := by
  induction u with
  | nil => simp [cut]
  | cons b u ih =>
    have hb : b ≠ sep := fun hb => h (hb ▸ List.mem_cons_self)
    rw [List.cons_append, cut, if_neg hb, ih fun hu => h (List.mem_cons_of_mem b hu)]

theorem cut_of_notMem {u : Bytes} (h : sep ∉ u) : cut sep u = (u, []) := by
  induction u with
  | nil => rfl
  | cons b u ih =>
    have hb : b ≠ sep := fun hb => h (hb ▸ List.mem_cons_self)
    rw [cut, if_neg hb, ih fun hu => h (List.mem_cons_of_mem b hu)]

/-! ### Integers -/

/-- `0`..`9`. -/
def IsDigit (b : UInt8) : Prop := 48 ≤ b.toNat ∧ b.toNat ≤ 57

instance (b : UInt8) : Decidable (IsDigit b) := inferInstanceAs (Decidable (_ ∧ _))

/-- The digits of `n`. -/
def digits (n : ℕ) : Bytes := (Nat.toDigits 10 n).map fun c => c.toNat.toUInt8

/-- `strconv.Itoa`, and `%d`. -/
def itoa (z : ℤ) : Bytes := if z < 0 then 45 :: digits z.natAbs else digits z.natAbs

/-- The number that digits stand for. -/
def ofDigits (s : Bytes) : ℕ := s.foldl (fun n b => 10 * n + (b.toNat - 48)) 0

/-- The integers of 64 bits. -/
def FitsInt64 (z : ℤ) : Prop := -2 ^ 63 ≤ z ∧ z < 2 ^ 63

instance (z : ℤ) : Decidable (FitsInt64 z) := inferInstanceAs (Decidable (_ ∧ _))

/-- Digits to a number; there must be one at least. -/
def parseDigits (s : Bytes) : Option ℕ :=
  if s ≠ [] ∧ s.all (IsDigit ·) then some (ofDigits s) else none

/-- `strconv.ParseInt(s, 10, 64)` and, on a machine of 64 bits, `strconv.Atoi`: a sign or none, then
digits, and the number must fit. -/
def parseInt (s : Bytes) : Option ℤ :=
  let value : Option ℤ :=
    match s with
    | [] => none
    | b :: rest =>
      if b = 45 then (parseDigits rest).map fun n : ℕ => -(n : ℤ)
      else if b = 43 then (parseDigits rest).map fun n : ℕ => (n : ℤ)
      else (parseDigits s).map fun n : ℕ => (n : ℤ)
  value.filter fun z => decide (FitsInt64 z)

theorem toNat_ascii_of_isDigit {c : Char} (h : c.isDigit = true) :
    (c.toNat.toUInt8).toNat = c.toNat ∧ 48 ≤ c.toNat ∧ c.toNat ≤ 57 := by
  have hc := DecimalText.le_of_isDigit h
  have hlo : 48 ≤ c.toNat := hc.1
  have hhi : c.toNat ≤ 57 := hc.2
  refine ⟨?_, hlo, hhi⟩
  rw [Nat.toUInt8, UInt8.toNat_ofNat']
  omega

theorem isDigit_of_mem_digits {n : ℕ} {b : UInt8} (h : b ∈ digits n) : IsDigit b := by
  obtain ⟨c, hc, rfl⟩ := List.mem_map.mp h
  obtain ⟨heq, hlo, hhi⟩ := toNat_ascii_of_isDigit
    (Nat.isDigit_of_mem_toDigits (by decide) (by decide) hc)
  unfold IsDigit
  rw [heq]
  exact ⟨hlo, hhi⟩

theorem digits_ne_nil (n : ℕ) : digits n ≠ [] := by
  intro h
  exact Nat.toDigits_ne_nil (List.map_eq_nil_iff.mp h)

@[simp] theorem ofDigits_digits (n : ℕ) : ofDigits (digits n) = n := by
  -- digit by digit the two readings agree: of the characters, and of their bytes
  have hfold : ∀ (l : List Char) (init : ℕ), (∀ c ∈ l, c.isDigit = true) →
      (l.map fun c => c.toNat.toUInt8).foldl (fun n b => 10 * n + (b.toNat - 48)) init =
        Nat.ofDigitChars 10 l init := by
    intro l
    induction l with
    | nil => intro init _; rfl
    | cons c l ih =>
      intro init hl
      obtain ⟨heq, -, -⟩ := toNat_ascii_of_isDigit (hl c List.mem_cons_self)
      rw [List.map_cons, List.foldl_cons, ih _ fun d hd => hl d (List.mem_cons_of_mem c hd),
        Nat.ofDigitChars_cons, heq]
      rfl
  unfold ofDigits digits
  rw [hfold _ 0 fun c hc => Nat.isDigit_of_mem_toDigits (by decide) (by decide) hc]
  exact Nat.ofDigitChars_ten_toDigits

@[simp] theorem parseDigits_digits (n : ℕ) : parseDigits (digits n) = some n := by
  have hall : (digits n).all (IsDigit ·) = true :=
    List.all_eq_true.mpr fun b hb => decide_eq_true (isDigit_of_mem_digits hb)
  unfold parseDigits
  rw [if_pos ⟨digits_ne_nil n, hall⟩, ofDigits_digits]

/-- **Only digits and a sign are written.** -/
theorem mem_itoa {z : ℤ} {b : UInt8} (h : b ∈ itoa z) : b = 45 ∨ IsDigit b := by
  unfold itoa at h
  split at h
  · rcases List.mem_cons.mp h with h | h
    · exact .inl h
    · exact .inr (isDigit_of_mem_digits h)
  · exact .inr (isDigit_of_mem_digits h)

theorem itoa_ne_nil (z : ℤ) : itoa z ≠ [] := by
  unfold itoa
  split
  · exact List.cons_ne_nil _ _
  · exact digits_ne_nil _

/-- **What is written is read back.** -/
theorem parseInt_itoa {z : ℤ} (hz : FitsInt64 z) : parseInt (itoa z) = some z := by
  unfold parseInt itoa
  by_cases hneg : z < 0
  · have habs : -(z.natAbs : ℤ) = z := by omega
    rw [if_pos hneg]
    dsimp only
    rw [if_pos rfl, parseDigits_digits, Option.map_some, habs]
    exact if_pos (decide_eq_true hz)
  · have habs : (z.natAbs : ℤ) = z := by omega
    rw [if_neg hneg]
    obtain ⟨b, s, hs⟩ := List.exists_cons_of_ne_nil (digits_ne_nil z.natAbs)
    have hb : IsDigit b := isDigit_of_mem_digits (n := z.natAbs) (hs ▸ List.mem_cons_self)
    have h45 : b ≠ 45 := by rintro rfl; revert hb; decide
    have h43 : b ≠ 43 := by rintro rfl; revert hb; decide
    have hp := parseDigits_digits z.natAbs
    rw [hs] at hp ⊢
    dsimp only
    rw [if_neg h45, if_neg h43, hp, Option.map_some, habs]
    exact if_pos (decide_eq_true hz)

end ByteText

end UnisetPanel
