/-
  `DecimalText` — numbers as decimal text, and the order of such texts.

  `pad w n` has exactly `w` digits, and among numbers that fit it the order of
  the texts is the order of the numbers (`pad_lt_pad`).  With the zeros at the
  end taken off (`trimZeros`) the order is still kept, but the lengths differ,
  and what stands after the digits decides between a text and one that it
  begins.  `append_terminator_lt` says how: a letter that is greater than all
  digits puts the longer text first.
-/
import Mathlib.Data.Char
import Mathlib.Data.List.Lex
import Mathlib.Data.List.Infix
import Mathlib.Tactic.Ring

namespace UnisetPanel.DecimalText

/-! ### The order of texts -/

section

variable {α : Type*}

/-- Texts that begin with blocks of one length are ordered by the blocks, then by what follows. -/
theorem append_lt_append_iff [LT α] {u v u' v' : List α} (h : u.length = v.length) :
    u ++ u' < v ++ v' ↔ u < v ∨ u = v ∧ u' < v' := by
  induction u generalizing v with
  | nil =>
    obtain rfl := List.eq_nil_of_length_eq_zero h.symm
    simp only [List.nil_append, List.not_lt_nil, true_and, false_or]
  | cons a u ih =>
    obtain ⟨b, v, rfl⟩ := List.exists_cons_of_length_eq_add_one h.symm
    have ih := ih (Nat.succ_injective h)
    simp only [List.cons_append, List.cons_lt_cons_iff, ih, List.cons.injEq, and_or_left, or_assoc,
      and_assoc]

/-- With a terminator greater than every letter, a text comes after those it begins. -/
theorem append_terminator_lt [LinearOrder α] {z : α} {u v : List α} (hu : ∀ a ∈ u, a < z)
    (hv : ∀ a ∈ v, a < z) :
    u ++ [z] < v ++ [z] ↔ (u < v ∧ ¬ u <+: v) ∨ (v <+: u ∧ v ≠ u) := by
  induction u generalizing v with
  | nil =>
    cases v with
    | nil => simp
    | cons b v =>
      have hb : b < z := hv b List.mem_cons_self
      simp [List.cons_lt_cons_iff, hb.not_gt, hb.ne']
  | cons a u ih =>
    have ha : a < z := hu a List.mem_cons_self
    cases v with
    | nil => simp [List.cons_lt_cons_iff, ha]
    | cons b v =>
      have ih := ih (fun c hc => hu c (List.mem_cons_of_mem a hc))
        (fun c hc => hv c (List.mem_cons_of_mem b hc))
      rcases eq_or_ne a b with rfl | hab
      · simp [List.cons_prefix_cons, ih]
      · simp [List.cons_lt_cons_iff, List.cons_prefix_cons, hab, hab.symm]

end

/-! ### Digits -/

theorem digitChar_lt_digitChar {m n : ℕ} (hm : m < 10) (hn : n < 10) :
    Nat.digitChar m < Nat.digitChar n ↔ m < n := by
  have h : Nat.digitChar m < Nat.digitChar n ↔
      (Nat.digitChar m).toNat < (Nat.digitChar n).toNat := Iff.rfl
  rw [h, Nat.toNat_digitChar_of_lt_ten hm, Nat.toNat_digitChar_of_lt_ten hn]
  exact Nat.add_lt_add_iff_left

theorem le_of_isDigit {c : Char} (h : c.isDigit = true) : '0' ≤ c ∧ c ≤ '9' := by
  rw [Char.isDigit, Bool.and_eq_true, decide_eq_true_iff, decide_eq_true_iff] at h
  exact h

/-- The last `w` digits of `n`. -/
def pad : ℕ → ℕ → List Char
  | 0, _ => []
  | w + 1, n => pad w (n / 10) ++ [Nat.digitChar (n % 10)]

@[simp] theorem length_pad (w n : ℕ) : (pad w n).length = w := by
  induction w generalizing n with
  | zero => rfl
  | succ w ih => rw [pad, List.length_append, ih, List.length_singleton]

theorem isDigit_of_mem_pad {w n : ℕ} {c : Char} (h : c ∈ pad w n) : c.isDigit = true := by
  induction w generalizing n with
  | zero => cases h
  | succ w ih =>
    rcases List.mem_append.mp h with h | h
    · exact ih h
    · rw [List.mem_singleton.mp h, Nat.isDigit_digitChar, decide_eq_true_iff]
      exact Nat.mod_lt n (Nat.succ_pos 9)

theorem exists_pad_eq_cons (w n : ℕ) : ∃ c s, c.isDigit = true ∧ pad (w + 1) n = c :: s := by
  obtain ⟨c, s, hs⟩ := List.exists_cons_of_length_eq_add_one (length_pad (w + 1) n)
  exact ⟨c, s, isDigit_of_mem_pad (hs ▸ List.mem_cons_self), hs⟩

theorem ofDigitChars_pad {w n : ℕ} (h : n < 10 ^ w) : Nat.ofDigitChars 10 (pad w n) 0 = n := by
  induction w generalizing n with
  | zero => exact (Nat.lt_one_iff.mp h).symm
  | succ w ih =>
    have hq : n / 10 < 10 ^ w := Nat.div_lt_of_lt_mul (by rwa [← Nat.pow_succ'])
    rw [pad, Nat.ofDigitChars_append, ih hq,
      Nat.ofDigitChars_cons_digitChar_of_lt_ten (Nat.mod_lt n (Nat.succ_pos 9)),
      Nat.ofDigitChars_nil]
    exact Nat.div_add_mod n 10

theorem pad_inj {w m n : ℕ} (hm : m < 10 ^ w) (hn : n < 10 ^ w) : pad w m = pad w n ↔ m = n := by
  refine ⟨fun h => ?_, congrArg _⟩
  rw [← ofDigitChars_pad hm, h, ofDigitChars_pad hn]

/-- **Texts of one width are ordered as their numbers.** -/
theorem pad_lt_pad {w m n : ℕ} (hm : m < 10 ^ w) (hn : n < 10 ^ w) :
    pad w m < pad w n ↔ m < n := by
  induction w generalizing m n with
  | zero =>
    obtain rfl := Nat.lt_one_iff.mp hm
    obtain rfl := Nat.lt_one_iff.mp hn
    simp only [pad, lt_irrefl]
  | succ w ih =>
    rw [Nat.pow_succ'] at hm hn
    have hm' := Nat.div_lt_of_lt_mul hm
    have hn' := Nat.div_lt_of_lt_mul hn
    rw [pad, pad, append_lt_append_iff (by rw [length_pad, length_pad]), ih hm' hn',
      pad_inj hm' hn', List.cons_lt_cons_iff,
      digitChar_lt_digitChar (Nat.mod_lt m (Nat.succ_pos 9)) (Nat.mod_lt n (Nat.succ_pos 9))]
    simp only [List.not_lt_nil, and_false, or_false]
    -- the quotients decide, and on equal quotients the last digits
    omega

theorem pad_append_lt_iff {w m n : ℕ} (hm : m < 10 ^ w) (hn : n < 10 ^ w) (u v : List Char) :
    pad w m ++ u < pad w n ++ v ↔ m < n ∨ m = n ∧ u < v := by
  rw [append_lt_append_iff (by rw [length_pad, length_pad]), pad_lt_pad hm hn, pad_inj hm hn]

theorem pad_append_inj {w m n : ℕ} (hm : m < 10 ^ w) (hn : n < 10 ^ w) {u v : List Char}
    (h : pad w m ++ u = pad w n ++ v) : m = n ∧ u = v := by
  obtain ⟨hpad, hrest⟩ := List.append_inj h (by rw [length_pad, length_pad])
  exact ⟨(pad_inj hm hn).mp hpad, hrest⟩

theorem pad_add (w k n : ℕ) : pad (w + k) n = pad w (n / 10 ^ k) ++ pad k n := by
  induction k generalizing n with
  | zero => rw [Nat.add_zero, Nat.pow_zero, Nat.div_one, pad, List.append_nil]
  | succ k ih =>
    rw [← Nat.add_assoc, pad, ih, pad, Nat.div_div_eq_div_mul, ← Nat.pow_succ', List.append_assoc]

theorem pad_mul_pow (k n : ℕ) : pad k (n * 10 ^ k) = List.replicate k '0' := by
  induction k generalizing n with
  | zero => rfl
  | succ k ih =>
    have hn : n * 10 ^ (k + 1) = n * 10 ^ k * 10 := by ring
    rw [pad, hn, Nat.mul_div_cancel _ (Nat.succ_pos 9), Nat.mul_mod_left, ih,
      List.replicate_succ']
    rfl

/-- Core's digits of a number are as many as the number needs. -/
theorem toDigits_eq_pad {w n : ℕ} (hn : 10 ^ w ≤ n) (hn' : n < 10 ^ (w + 1)) :
    Nat.toDigits 10 n = pad (w + 1) n := by
  induction w generalizing n with
  | zero =>
    have hn' : n < 10 := hn'
    rw [Nat.toDigits_of_lt_base hn', pad, Nat.mod_eq_of_lt hn']
    rfl
  | succ w ih =>
    have hten : 10 ≤ n := (Nat.le_self_pow (Nat.succ_ne_zero w) 10).trans hn
    rw [Nat.toDigits_of_base_le (by decide) hten, pad,
      ih ((Nat.le_div_iff_mul_le (Nat.succ_pos 9)).mpr hn)
        (Nat.div_lt_of_lt_mul (by rwa [← Nat.pow_succ']))]

/-! ### Zeros at the end -/

/-- A text without the zeros at its end. -/
def trimZeros : List Char → List Char
  | [] => []
  | c :: cs => if c = '0' ∧ trimZeros cs = [] then [] else c :: trimZeros cs

theorem trimZeros_append_replicate (u : List Char) :
    ∃ k, u = trimZeros u ++ List.replicate k '0' := by
  induction u with
  | nil => exact ⟨0, rfl⟩
  | cons c u ih =>
    obtain ⟨k, hk⟩ := ih
    by_cases h : c = '0' ∧ trimZeros u = []
    · rw [trimZeros, if_pos h]
      rw [h.2] at hk
      refine ⟨k + 1, ?_⟩
      rw [h.1, List.replicate_succ, ← List.nil_append (List.replicate k _), ← hk]
      rfl
    · rw [trimZeros, if_neg h]
      exact ⟨k, congrArg (c :: ·) hk⟩

theorem mem_of_mem_trimZeros {u : List Char} {c : Char} (h : c ∈ trimZeros u) : c ∈ u := by
  obtain ⟨k, hk⟩ := trimZeros_append_replicate u
  rw [hk]
  exact List.mem_append_left _ h

theorem trimZeros_eq_nil {u : List Char} : trimZeros u = [] ↔ u = List.replicate u.length '0' := by
  induction u with
  | nil => exact ⟨fun _ => rfl, fun _ => rfl⟩
  | cons c u ih =>
    rw [trimZeros, List.length_cons, List.replicate_succ, List.cons.injEq, ← ih]
    split_ifs with h
    · exact ⟨fun _ => h, fun _ => rfl⟩
    · exact ⟨nofun, fun h' => absurd h' h⟩

/-- Texts of one length keep their order when the zeros are taken off. -/
theorem trimZeros_lt_trimZeros {u v : List Char} (hlen : u.length = v.length)
    (hu : ∀ c ∈ u, '0' ≤ c) (hv : ∀ c ∈ v, '0' ≤ c) : trimZeros u < trimZeros v ↔ u < v := by
  induction u generalizing v with
  | nil =>
    obtain rfl := List.eq_nil_of_length_eq_zero hlen.symm
    rfl
  | cons c u ih =>
    obtain ⟨d, v, rfl⟩ := List.exists_cons_of_length_eq_add_one hlen.symm
    have ih := ih (Nat.succ_injective hlen) (fun a ha => hu a (List.mem_cons_of_mem c ha))
      (fun a ha => hv a (List.mem_cons_of_mem d ha))
    have hc : '0' ≤ c := hu c List.mem_cons_self
    have hd : '0' ≤ d := hv d List.mem_cons_self
    rw [trimZeros, trimZeros, List.cons_lt_cons_iff, ← ih]
    split_ifs with h h' h'
    · simp [h.1, h.2, h'.1, h'.2]
    · rcases hd.lt_or_eq with hd | rfl
      · simp [h.1, hd]
      · have hne : trimZeros v ≠ [] := fun hv => h' ⟨rfl, hv⟩
        obtain ⟨a, t, ht⟩ := List.exists_cons_of_ne_nil hne
        simp [h.1, h.2, ht]
    · rcases hc.lt_or_eq with hc | rfl
      · simp [h'.1, hc.not_gt, hc.ne']
      · simp [h'.1, h'.2]
    · rw [List.cons_lt_cons_iff]

@[simp] theorem trimZeros_append_zeros (u : List Char) (k : ℕ) :
    trimZeros (u ++ List.replicate k '0') = trimZeros u := by
  induction u with
  | nil =>
    rw [List.nil_append, trimZeros, trimZeros_eq_nil, List.length_replicate]
  | cons c u ih => rw [List.cons_append, trimZeros, trimZeros, ih]

theorem trimZeros_prefix_append (u v : List Char) : trimZeros u <+: trimZeros (u ++ v) := by
  induction u with
  | nil => exact List.nil_prefix
  | cons c u ih =>
    rw [List.cons_append, trimZeros, trimZeros]
    split_ifs with h h' h'
    · exact List.nil_prefix
    · exact List.nil_prefix
    · exact absurd ⟨h'.1, List.prefix_nil.mp (h'.2 ▸ ih)⟩ h
    · exact List.cons_prefix_cons.mpr ⟨rfl, ih⟩

/-- What is left of a text begins what is left of another of its length, if the text is the other
with zeros in place of its end. -/
theorem trimZeros_prefix_iff {u v : List Char} (hlen : u.length = v.length) :
    trimZeros u <+: trimZeros v ↔
      ∃ k ≤ v.length, u = v.take (v.length - k) ++ List.replicate k '0' := by
  constructor
  · intro h
    obtain ⟨k, hk⟩ := trimZeros_append_replicate u
    obtain ⟨j, hj⟩ := trimZeros_append_replicate v
    have hlen' : (trimZeros u).length + k = v.length := by
      rw [← hlen, ← List.length_replicate (n := k) (a := '0'), ← List.length_append, ← hk]
    have hpre : trimZeros u <+: v := h.trans ⟨_, hj.symm⟩
    refine ⟨k, by omega, ?_⟩
    rw [← hlen', Nat.add_sub_cancel, ← List.prefix_iff_eq_take.mp hpre]
    exact hk
  · rintro ⟨k, -, hk⟩
    rw [hk, trimZeros_append_zeros]
    have h := trimZeros_prefix_append (v.take (v.length - k)) (v.drop (v.length - k))
    rwa [List.take_append_drop] at h

/-- Of two numbers with `w` digits, one begins the other when the zeros are taken off, if it is the
other with the last `k` digits set to zero. -/
theorem trimZeros_pad_prefix_iff {w m n : ℕ} (hm : m < 10 ^ w) (hn : n < 10 ^ w) :
    trimZeros (pad w m) <+: trimZeros (pad w n) ↔ ∃ k ≤ w, m = n / 10 ^ k * 10 ^ k := by
  rw [trimZeros_prefix_iff (by rw [length_pad, length_pad]), length_pad]
  refine exists_congr fun k => and_congr_right fun hk => ?_
  have hle : n / 10 ^ k * 10 ^ k < 10 ^ w := (Nat.div_mul_le_self n _).trans_lt hn
  obtain ⟨j, rfl⟩ := Nat.exists_eq_add_of_le' hk
  -- the digits that stay, and zeros for those that go
  have htext : (pad (j + k) n).take (j + k - k) ++ List.replicate k '0' =
      pad (j + k) (n / 10 ^ k * 10 ^ k) := by
    rw [pad_add, pad_add, Nat.add_sub_cancel, List.take_left' (length_pad _ _), pad_mul_pow,
      Nat.mul_div_cancel _ (Nat.pow_pos (Nat.succ_pos 9))]
  rw [htext, pad_inj hm hle]

end UnisetPanel.DecimalText
