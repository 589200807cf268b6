/-
  The value hash of the OPC UA poller (`GetValueHash` and the functions that
  format a value, `internal/opcua/poller.go`).

  A value is written as text, and the tick behind it.  The text does not say of
  which kind the value is: a string is written as it is, so it may read as another
  value, and arrays and objects are all written alike.  A fraction is written with
  the sign of its integer part, and zero has none: -0.5 and 0.5 have one hash
  (`not_separates_half`).  These are all pairs that the hash confuses
  (`separates_iff`); from any other pair change detection sees just whether the
  values differ (`hasValueChanged_iff`).

  Numbers are exact, with at most six digits behind the point.
-/
import UnisetPanel.Recording.Basic
import Mathlib

namespace UnisetPanel

/-! ### The code -/

/-- The loop of `formatInt64`, with so many bytes of `buf` free. -/
def formatDigits : ℕ → ℕ → List Char → List Char
  | 0, _, buf => buf
  | i + 1, v, buf =>
    if 0 < v then formatDigits i (v / 10) (Char.ofNat ('0'.toNat + v % 10) :: buf) else buf

/-- `formatInt64`, with its buffer.  (The least number is its own negative, so the loop does not run
for it.) -/
def formatInt64Buf (v : Int64) : String :=
  if v = 0 then "0"
  else
    let negative := v < 0
    let v := if negative then -v else v
    let buf := formatDigits 20 v.toInt.toNat []
    String.ofList (if negative then '-' :: buf else buf)

/-- A number without its fraction. -/
def truncate (v : ℚ) : ℤ := if 0 ≤ v then ⌊v⌋ else ⌈v⌉

/-- `int64(v)`, of a number that fits. -/
def int64OfRat (v : ℚ) : Int64 := Int64.ofInt (truncate v)

/-- `formatFloat64`. -/
def formatFloat64 (v : ℚ) : String :=
  if v = (int64OfRat v).toInt then formatInt64 (int64OfRat v)
  else
    let intPart := int64OfRat v
    let fracPart := int64OfRat ((v - intPart.toInt) * 1000000)
    let fracPart := if fracPart < 0 then -fracPart else fracPart
    formatInt64 intPart ++ "." ++ formatInt64 fracPart

/-- The numbers of the API are exact. -/
instance : Float64 ℚ where
  formatFloat64 := formatFloat64
  toInt := int64OfRat

/-! ### The values of the API -/

/-- The numbers of the API: below `2 ^ 63`, with at most six digits behind the point. -/
abbrev Decimal := { v : ℚ // |v| < 2 ^ 63 ∧ (v * 1000000).den = 1 }

/-- A value in JSON; arrays and objects by their text. -/
inductive ApiValue where
  | null
  | number (v : Decimal)
  | string (s : String)
  | bool (b : Bool)
  | composite (text : String)
  deriving DecidableEq

namespace ApiValue

/-- What the decoder makes of a value. -/
def decode : ApiValue → AnyValue ℚ
  | .null => .nil
  | .number v => .float64 v
  | .string s => .string s
  | .bool b => .bool b
  | .composite x => .other x

/-- **The hash separates the two values**: of items with one id and tick, it is the same exactly if
the values are. -/
def Separates (a b : ApiValue) : Prop :=
  ∀ x y : OPCUASensor ℚ, x.id = y.id → x.tick = y.tick → x.value = a.decode → y.value = b.decode →
    ((opcuaFetcher ℚ).getValueHash x = (opcuaFetcher ℚ).getValueHash y ↔ a = b)

/-- A number, from its millionths: the integer part, and the other millionths behind a point, both
without leading zeros; the sign is that of the integer part. -/
def decimalText (millionths : ℤ) : String :=
  if millionths % 1000000 = 0 then toString (millionths / 1000000)
  else toString (millionths.tdiv 1000000) ++ "." ++
    toString ((millionths.tmod 1000000).natAbs : ℤ)

/-- The text that stands for a value. -/
def text : ApiValue → String
  | .null => "nil"
  | .number v => decimalText (v.1 * 1000000).num
  | .string s => s
  | .bool true => "true"
  | .bool false => "false"
  | .composite _ => "?"

/-- The pairs of values that read alike: two numbers between -1 and 1 that differ in the sign, two
arrays or objects, and a string that reads as another value. -/
def Confused : ApiValue → ApiValue → Prop
  | .number v, .number w => v.1 = -w.1 ∧ v.1 ≠ 0 ∧ |v.1| < 1
  | .composite x, .composite y => x ≠ y
  | .string _, .string _ => False
  | .string s, b => s = b.text
  | a, .string s => a.text = s
  | _, _ => False

end ApiValue

/-! ### Integers -/

theorem formatDigits_eq {i v : ℕ} (h : v < 10 ^ i) (buf : List Char) :
    formatDigits i v buf = (if v = 0 then [] else Nat.toDigits 10 v) ++ buf := by
  induction i generalizing v buf with
  | zero =>
    rw [Nat.pow_zero] at h
    rw [if_pos (by omega)]
    rfl
  | succ i ih =>
    unfold formatDigits
    split_ifs with hpos hzero hzero
    · omega
    · have hdigit : Char.ofNat ('0'.toNat + v % 10) = Nat.digitChar (v % 10) := by
        have hlt := Nat.mod_lt v (by decide : 10 > 0)
        interval_cases v % 10 <;> rfl
      rw [Nat.pow_succ] at h
      rw [ih (by omega), hdigit, Nat.toDigits_eq_if (n := v) (by decide)]
      by_cases hlt : v < 10
      · rw [if_pos (by omega), if_pos hlt, Nat.mod_eq_of_lt hlt]
        rfl
      · rw [if_neg (by omega), if_neg hlt, List.append_assoc]
        rfl
    · rfl
    · omega

/-- The digits of a positive number. -/
theorem digits_of_pos {v : Int64} (h : 0 < v.toInt) :
    formatInt64.digits v = v.toInt.toNat.repr := by
  have hv : (0 : Int64) < v := Int64.lt_iff_toInt_lt.mpr h
  unfold formatInt64.digits
  rw [if_pos hv]
  show Int.repr v.toInt = _
  rw [Int.repr_eq_if, if_pos h.le]

/-- The loop writes the digits; 20 bytes are enough. -/
theorem formatDigits_eq_toList (v : Int64) :
    formatDigits 20 v.toInt.toNat [] = (formatInt64.digits v).toList := by
  have hlt := v.toInt_lt
  rw [formatDigits_eq (by omega), List.append_nil]
  by_cases h : 0 < v.toInt
  · rw [digits_of_pos h, if_neg (by omega), Nat.toList_repr]
  · have hv : ¬ (0 : Int64) < v := fun hv => h (Int64.lt_iff_toInt_lt.mp hv)
    unfold formatInt64.digits
    rw [if_pos (by omega), if_neg hv]
    rfl

/-- **The buffer holds the text.** -/
theorem formatInt64_eq_buf (v : Int64) : formatInt64 v = formatInt64Buf v := by
  unfold formatInt64 formatInt64Buf
  split_ifs with hzero hneg
  · rfl
  · apply String.toList_injective
    simp only [if_pos hneg, formatDigits_eq_toList, String.toList_append, String.toList_ofList]
    rfl
  · apply String.toList_injective
    simp only [if_neg hneg, formatDigits_eq_toList, String.toList_ofList]

theorem toInt_ofInt {n : ℤ} (hn : |n| < 2 ^ 63) : (Int64.ofInt n).toInt = n := by
  obtain ⟨hlow, hhigh⟩ := abs_lt.mp hn
  exact Int64.toInt_ofInt_of_le (by omega) hhigh

theorem ofInt_lt_zero_iff {n : ℤ} (hn : |n| < 2 ^ 63) : Int64.ofInt n < 0 ↔ n < 0 := by
  rw [Int64.lt_iff_toInt_lt, toInt_ofInt hn, Int64.toInt_zero]

/-- **`formatInt64` writes decimals.** -/
theorem formatInt64_ofInt {n : ℤ} (hn : |n| < 2 ^ 63) : formatInt64 (Int64.ofInt n) = toString n := by
  have hint : (Int64.ofInt n).toInt = n := toInt_ofInt hn
  have hneg : (-Int64.ofInt n).toInt = -n := by
    rw [← Int64.ofInt_neg]
    exact toInt_ofInt (abs_neg n ▸ hn)
  have hzero : Int64.ofInt n = 0 ↔ n = 0 := by
    rw [← Int64.toInt_inj, hint, Int64.toInt_zero]
  have hlt := ofInt_lt_zero_iff hn
  show formatInt64 (Int64.ofInt n) = Int.repr n
  unfold formatInt64
  rw [Int.repr_eq_if]
  by_cases h0 : n = 0
  · rw [if_pos (hzero.mpr h0), h0]
    rfl
  · rw [if_neg (hzero.not.mpr h0)]
    by_cases hn0 : n < 0
    · rw [if_pos (hlt.mpr hn0), if_neg (by omega), digits_of_pos (by omega), hneg]
    · rw [if_neg (hlt.not.mpr hn0), if_pos (by omega), digits_of_pos (by omega), hint]

/-- The characters of an integer: digits, and a minus in front. -/
theorem isDigit_of_mem_toString {n : ℤ} {c : Char} (h : c ∈ (toString n).toList) :
    c.isDigit = true ∨ c = '-' := by
  have hnat {m : ℕ} (h : c ∈ m.repr.toList) : c.isDigit = true := by
    rw [Nat.toList_repr] at h
    exact Nat.isDigit_of_mem_toDigits (by decide) (by decide) h
  change c ∈ (Int.repr n).toList at h
  rw [Int.repr_eq_if] at h
  split_ifs at h
  · exact Or.inl (hnat h)
  · rw [String.toList_append, List.mem_append] at h
    rcases h with hminus | h
    · exact Or.inr (by simpa using hminus)
    · exact Or.inl (hnat h)

/-! ### Numbers -/

theorem truncate_intCast (n : ℤ) : truncate n = n := by
  unfold truncate
  rw [Int.floor_intCast, Int.ceil_intCast, ite_self]

/-- The integer part of a number, from its millionths. -/
theorem truncate_div (n : ℤ) : truncate (n / 1000000) = n.tdiv 1000000 := by
  have hfloor (m : ℤ) : ⌊(m / 1000000 : ℚ)⌋ = m / 1000000 := by
    exact_mod_cast Rat.floor_intCast_div_natCast m 1000000
  unfold truncate
  split_ifs with h
  · have hn : 0 ≤ n := by
      by_contra hn
      exact absurd (div_neg_of_neg_of_pos (by exact_mod_cast not_le.mp hn) (by norm_num)) (not_lt.mpr h)
    rw [hfloor, Int.tdiv_eq_ediv_of_nonneg hn]
  · have hn : n < 0 := by
      by_contra hn
      exact h (div_nonneg (by exact_mod_cast not_lt.mp hn) (by norm_num))
    have hceil : ⌈(n / 1000000 : ℚ)⌉ = -⌊((-n : ℤ) / 1000000 : ℚ)⌋ := by
      rw [← Int.ceil_neg]
      push_cast
      ring_nf
    rw [hceil, hfloor, ← Int.tdiv_eq_ediv_of_nonneg (by omega), Int.neg_tdiv, neg_neg]

/-- A number of the API is a number of millionths. -/
theorem Decimal.exists_millionths (v : Decimal) :
    ∃ n : ℤ, (v.1 * 1000000).num = n ∧ v.1 = n / 1000000 ∧ |n| < 2 ^ 63 * 1000000 := by
  obtain ⟨v, hlt, hden⟩ := v
  have hnum : ((v * 1000000).num : ℚ) = v * 1000000 := (Rat.den_eq_one_iff _).mp hden
  refine ⟨_, rfl, ?_, ?_⟩
  · rw [hnum]
    field_simp
  · have hcast : ((|(v * 1000000).num| : ℤ) : ℚ) = |v| * 1000000 := by
      rw [Int.cast_abs, hnum, abs_mul, abs_of_pos (by norm_num : (0 : ℚ) < 1000000)]
    have hbound : |v| * 1000000 < 2 ^ 63 * 1000000 := mul_lt_mul_of_pos_right hlt (by norm_num)
    rw [← hcast] at hbound
    exact_mod_cast hbound

/-- The integer part and the rest have the sign of the number. -/
theorem tdiv_tmod_spec (n : ℤ) :
    n = 1000000 * n.tdiv 1000000 + n.tmod 1000000 ∧
      -1000000 < n.tmod 1000000 ∧ n.tmod 1000000 < 1000000 ∧
      (0 ≤ n → 0 ≤ n.tdiv 1000000 ∧ 0 ≤ n.tmod 1000000) ∧
      (n ≤ 0 → n.tdiv 1000000 ≤ 0 ∧ n.tmod 1000000 ≤ 0) := by
  rcases Int.le_total 0 n with hn | hn
  · rw [Int.tdiv_eq_ediv_of_nonneg hn, Int.tmod_eq_emod_of_nonneg hn]
    omega
  · have hneg : n = -(-n) := (neg_neg n).symm
    rw [hneg, Int.neg_tdiv, Int.neg_tmod, Int.tdiv_eq_ediv_of_nonneg (by omega),
      Int.tmod_eq_emod_of_nonneg (by omega)]
    omega

/-- **`formatFloat64` writes millionths.** -/
theorem formatFloat64_eq {n : ℤ} (hn : |n| < 2 ^ 63 * 1000000) :
    formatFloat64 (n / 1000000) = ApiValue.decimalText n := by
  obtain ⟨hlow, hhigh⟩ := abs_lt.mp hn
  obtain ⟨hdiv, hmodlow, hmodhigh, hpos, hneg⟩ := tdiv_tmod_spec n
  have hquot : |n.tdiv 1000000| < 2 ^ 63 := by
    rw [abs_lt]
    omega
  have hrest : |n.tmod 1000000| < 2 ^ 63 := by
    rw [abs_lt]
    omega
  have hint : int64OfRat (n / 1000000) = Int64.ofInt (n.tdiv 1000000) := by
    rw [int64OfRat, truncate_div]
  have hback : (Int64.ofInt (n.tdiv 1000000)).toInt = n.tdiv 1000000 := toInt_ofInt hquot
  have hfrac : ((n / 1000000 : ℚ) - (n.tdiv 1000000 : ℤ)) * 1000000 = (n.tmod 1000000 : ℤ) := by
    have hcast : (n : ℚ) = 1000000 * (n.tdiv 1000000 : ℤ) + (n.tmod 1000000 : ℤ) := by
      exact_mod_cast hdiv
    field_simp
    linarith
  have hwhole : (n / 1000000 : ℚ) = (n.tdiv 1000000 : ℤ) ↔ n % 1000000 = 0 := by
    rw [div_eq_iff (by norm_num)]
    norm_cast
    omega
  unfold formatFloat64 ApiValue.decimalText
  simp only [hint, hback, hwhole]
  by_cases hzero : n % 1000000 = 0
  · rw [if_pos hzero, if_pos hzero, formatInt64_ofInt hquot]
    congr 1
    omega
  · have hfracPart : int64OfRat (((n / 1000000 : ℚ) - (n.tdiv 1000000 : ℤ)) * 1000000) =
        Int64.ofInt (n.tmod 1000000) := by
      rw [hfrac, int64OfRat, truncate_intCast]
    have habs : (if Int64.ofInt (n.tmod 1000000) < 0 then -Int64.ofInt (n.tmod 1000000)
        else Int64.ofInt (n.tmod 1000000)) = Int64.ofInt ((n.tmod 1000000).natAbs : ℤ) := by
      by_cases hlt : n.tmod 1000000 < 0
      · rw [if_pos ((ofInt_lt_zero_iff hrest).mpr hlt), ← Int64.ofInt_neg]
        congr 1
        omega
      · rw [if_neg ((ofInt_lt_zero_iff hrest).not.mpr hlt)]
        congr 1
        omega
    have hnatAbs : |((n.tmod 1000000).natAbs : ℤ)| < 2 ^ 63 := by
      rw [Int.natCast_natAbs, abs_abs]
      exact hrest
    rw [if_neg hzero, if_neg hzero, hfracPart, habs, formatInt64_ofInt hquot,
      formatInt64_ofInt hnatAbs]

theorem point_notMem_toString (n : ℤ) : '.' ∉ (toString n).toList := by
  intro h
  rcases isDigit_of_mem_toString h with h | h
  · exact absurd h (by decide)
  · exact absurd h (by decide)

theorem toString_injective {n m : ℤ} (h : toString n = toString m) : n = m := Int.repr_injective h

theorem toList_decimalText_of_mod {n : ℤ} (h : n % 1000000 ≠ 0) :
    (ApiValue.decimalText n).toList =
      (toString (n.tdiv 1000000)).toList ++
        '.' :: (toString ((n.tmod 1000000).natAbs : ℤ)).toList := by
  unfold ApiValue.decimalText
  rw [if_neg h, String.toList_append, String.toList_append]
  simp

/-- A text with a point is none of a whole number. -/
theorem decimalText_ne {n m : ℤ} (hn : n % 1000000 = 0) (hm : m % 1000000 ≠ 0) :
    ApiValue.decimalText n ≠ ApiValue.decimalText m := by
  intro h
  have hpoint : '.' ∈ (ApiValue.decimalText n).toList := by
    rw [h, toList_decimalText_of_mod hm]
    simp
  unfold ApiValue.decimalText at hpoint
  rw [if_pos hn] at hpoint
  exact point_notMem_toString _ hpoint

/-- **What the text of a number tells**: the number, up to the sign if it is between -1 and 1. -/
theorem decimalText_eq_iff {n m : ℤ} :
    ApiValue.decimalText n = ApiValue.decimalText m ↔ n = m ∨ n = -m ∧ |n| < 1000000 := by
  obtain ⟨hn, hnlow, hnhigh, hnpos, hnneg⟩ := tdiv_tmod_spec n
  obtain ⟨hm, hmlow, hmhigh, hmpos, hmneg⟩ := tdiv_tmod_spec m
  constructor
  · intro h
    by_cases hn0 : n % 1000000 = 0
    · by_cases hm0 : m % 1000000 = 0
      · unfold ApiValue.decimalText at h
        rw [if_pos hn0, if_pos hm0] at h
        have := toString_injective h
        omega
      · exact absurd h (decimalText_ne hn0 hm0)
    · by_cases hm0 : m % 1000000 = 0
      · exact absurd h.symm (decimalText_ne hm0 hn0)
      · have hlist := congrArg String.toList h
        rw [toList_decimalText_of_mod hn0, toList_decimalText_of_mod hm0] at hlist
        obtain ⟨hquot, -, hrest⟩ := (List.append_cons_inj_of_notMem (point_notMem_toString _)
          (point_notMem_toString _)).mp hlist
        have hquot := toString_injective (String.toList_injective hquot)
        have hrest := toString_injective (String.toList_injective hrest)
        rw [abs_lt]
        omega
  · rintro (rfl | ⟨hopposite, hlt⟩)
    · rfl
    · rw [abs_lt] at hlt
      by_cases hn0 : n % 1000000 = 0
      · have hboth : n = m := by omega
        rw [hboth]
      · have hquot : n.tdiv 1000000 = m.tdiv 1000000 := by omega
        have hrest : ((n.tmod 1000000).natAbs : ℤ) = (m.tmod 1000000).natAbs := by omega
        apply String.toList_injective
        rw [toList_decimalText_of_mod hn0, toList_decimalText_of_mod (by omega), hquot, hrest]

/-- The text of a number begins with a digit or a minus. -/
theorem exists_toList_decimalText (n : ℤ) :
    ∃ c cs, (ApiValue.decimalText n).toList = c :: cs ∧ (c.isDigit = true ∨ c = '-') := by
  have hint (k : ℤ) : ∃ c cs, (toString k).toList = c :: cs ∧ (c.isDigit = true ∨ c = '-') := by
    cases hlist : (toString k).toList with
    | nil =>
      change (Int.repr k).toList = [] at hlist
      rw [Int.repr_eq_if] at hlist
      split_ifs at hlist
      · rw [Nat.toList_repr] at hlist
        exact absurd hlist Nat.toDigits_ne_nil
      · simp at hlist
    | cons c cs =>
      refine ⟨c, cs, rfl, isDigit_of_mem_toString (n := k) ?_⟩
      rw [hlist]
      exact List.mem_cons_self
  by_cases h : n % 1000000 = 0
  · unfold ApiValue.decimalText
    rw [if_pos h]
    exact hint _
  · obtain ⟨c, cs, hcs, hc⟩ := hint (n.tdiv 1000000)
    rw [toList_decimalText_of_mod h, hcs]
    exact ⟨c, _, rfl, hc⟩

namespace ApiValue

/-- The texts of the other values begin otherwise. -/
theorem decimalText_notMem (n : ℤ) : decimalText n ∉ ["nil", "true", "false", "?"] := by
  obtain ⟨c, cs, hcs, hc⟩ := exists_toList_decimalText n
  intro hmem
  simp only [List.mem_cons, List.not_mem_nil, or_false] at hmem
  rcases hmem with h | h | h | h
  all_goals
    rw [h] at hcs
    obtain rfl := (List.cons.inj hcs).1
    exact absurd hc (by decide)

/-- **`formatValue` writes the text.** -/
theorem formatValue_decode (a : ApiValue) : formatValue a.decode = a.text := by
  match a with
  | .null | .string _ | .bool true | .bool false | .composite _ => rfl
  | .number v =>
    obtain ⟨n, hn, hv, hlt⟩ := v.exists_millionths
    show formatFloat64 v.1 = decimalText (v.1 * 1000000).num
    rw [hn, hv]
    exact formatFloat64_eq hlt

/-- Two numbers. -/
theorem decimal_text_eq_iff (v w : Decimal) :
    ((number v : ApiValue).text = (number w : ApiValue).text ↔
      (number v : ApiValue) = number w) ↔ ¬ (number v : ApiValue).Confused (number w) := by
  obtain ⟨n, hn, hv, -⟩ := v.exists_millionths
  obtain ⟨m, hm, hw, -⟩ := w.exists_millionths
  have hsame : (number v : ApiValue) = number w ↔ n = m := by
    rw [number.injEq, Subtype.ext_iff, hv, hw, div_left_inj' (by norm_num)]
    exact_mod_cast Iff.rfl
  have hopposite : v.1 = -w.1 ↔ n = -m := by
    rw [hv, hw, ← neg_div, div_left_inj' (by norm_num)]
    exact_mod_cast Iff.rfl
  have hzero : v.1 ≠ 0 ↔ n ≠ 0 := by
    rw [hv, Ne, div_eq_zero_iff]
    simp
  have hone : |v.1| < 1 ↔ |n| < 1000000 := by
    rw [hv, abs_div, abs_of_pos (by norm_num : (0 : ℚ) < 1000000), div_lt_one (by norm_num)]
    exact_mod_cast Iff.rfl
  show (decimalText (v.1 * 1000000).num = decimalText (w.1 * 1000000).num ↔ _) ↔
    ¬ (v.1 = -w.1 ∧ v.1 ≠ 0 ∧ |v.1| < 1)
  rw [hn, hm, decimalText_eq_iff, hsame, hopposite, hzero, hone, abs_lt]
  omega

/-- **The texts of two values are the same exactly if the values are**, but for the pairs that are
confused. -/
theorem text_eq_text_iff (a b : ApiValue) : (a.text = b.text ↔ a = b) ↔ ¬ a.Confused b := by
  match a, b with
  | .string s, .string t => simp [text, Confused]
  | .string s, .null | .string s, .number _ | .string s, .bool _ | .string s, .composite _ =>
    simp [text, Confused]
  | .null, .string s | .number _, .string s | .bool _, .string s | .composite _, .string s =>
    simp [text, Confused]
  | .composite x, .composite y => simp [text, Confused]
  | .number v, .number w => exact decimal_text_eq_iff v w
  | .number v, .null | .number v, .composite _ =>
    have := decimalText_notMem (v.1 * 1000000).num
    simp_all [text, Confused]
  | .null, .number v | .composite _, .number v =>
    have := decimalText_notMem (v.1 * 1000000).num
    simp_all [text, Confused, eq_comm]
  | .number v, .bool b =>
    have := decimalText_notMem (v.1 * 1000000).num
    cases b <;> simp_all [text, Confused]
  | .bool b, .number v =>
    have := decimalText_notMem (v.1 * 1000000).num
    cases b <;> simp_all [text, Confused, eq_comm]
  | .bool b, .bool c => cases b <;> cases c <;> simp [text, Confused]
  | .bool b, .null | .bool b, .composite _ | .null, .bool b | .composite _, .bool b =>
    cases b <;> simp [text, Confused]
  | .null, .null | .null, .composite _ | .composite _, .null => simp [text, Confused]

/-- Two hashes of one tick tell the texts. -/
theorem formatValueHash_eq_iff (a b : ApiValue) (tick : Int64) :
    formatValueHash a.decode tick = formatValueHash b.decode tick ↔ a.text = b.text := by
  unfold formatValueHash
  rw [formatValue_decode, formatValue_decode]
  constructor
  · intro h
    have hlist := congrArg String.toList h
    simp only [String.toList_append, List.append_assoc] at hlist
    exact String.toList_injective (List.append_cancel_right hlist)
  · intro h
    rw [h]

end ApiValue

/-! ### What the hash confuses -/

/-- A half, with either sign. -/
def half : Decimal := ⟨1 / 2, by norm_num, by norm_num⟩

def minusHalf : Decimal := ⟨-1 / 2, by norm_num, by norm_num⟩

/-- **A sign gets lost**: the hash of -0.5 is that of 0.5. -/
theorem not_separates_half : ¬ ∀ a b : ApiValue, a.Separates b := by
  intro h
  have hhash : formatFloat64 (1 / 2) = formatFloat64 (-1 / 2) := by decide +kernel
  have hvalue := (h (.number half) (.number minusHalf) ⟨1, "", .float64 (1 / 2), 0⟩
    ⟨1, "", .float64 (-1 / 2), 0⟩ rfl rfl rfl rfl).mp
    (congrArg (· ++ "|" ++ formatInt64 0) hhash)
  rw [ApiValue.number.injEq, Subtype.ext_iff] at hvalue
  exact absurd hvalue (by norm_num [half, minusHalf])

/-- **Exactly when the hash separates two values**: they are not a pair that reads alike. -/
theorem separates_iff (a b : ApiValue) : a.Separates b ↔ ¬ a.Confused b := by
  rw [← ApiValue.text_eq_text_iff]
  constructor
  · intro h
    have hhash := h ⟨0, "", a.decode, 0⟩ ⟨0, "", b.decode, 0⟩ rfl rfl rfl rfl
    exact (ApiValue.formatValueHash_eq_iff a b 0).symm.trans hhash
  · intro h x y _ htick hx hy
    show formatValueHash x.value x.tick = formatValueHash y.value y.tick ↔ a = b
    rw [hx, hy, htick, ApiValue.formatValueHash_eq_iff]
    exact h

/-- **Change detection sees the others**: once an item is recorded, the next one of its id and tick
counts as changed just if its value differs. -/
theorem hasValueChanged_iff {a b : ApiValue} (hab : ¬ a.Confused b)
    (p : BasePoller (opcuaFetcher ℚ)) (objectName : String) {x y : OPCUASensor ℚ}
    (hid : x.id = y.id) (htick : x.tick = y.tick) (hx : x.value = a.decode)
    (hy : y.value = b.decode) :
    ((p.updateLastValue objectName x).hasValueChanged objectName y).1 = true ↔ a ≠ b := by
  have hlast : (p.updateLastValue objectName x).lastValue objectName y.id =
      some (formatValueHash x.value x.tick) := by
    rw [BasePoller.lastValue_updateLastValue, if_pos ⟨rfl, hid.symm⟩]
    rfl
  have hhash : formatValueHash x.value x.tick = formatValueHash y.value y.tick ↔ a = b := by
    rw [hx, hy, htick, ApiValue.formatValueHash_eq_iff]
    exact (ApiValue.text_eq_text_iff a b).mpr hab
  have hif : ((p.updateLastValue objectName x).hasValueChanged objectName y).1 = true ↔
      (p.updateLastValue objectName x).lastValue objectName y.id ≠
        some (formatValueHash y.value y.tick) := by
    unfold BasePoller.hasValueChanged
    split_ifs with h
    · exact iff_of_true rfl h
    · exact iff_of_false (by decide) h
  rw [hif, hlast, ne_eq, Option.some.injEq, hhash]

end UnisetPanel
