/-
  `MurmurHash2` (`internal/sensorconfig/murmurhash2.go`), the hash of a sensor's
  name from which uniset makes its id.

  The loop takes four bytes at a time, and the `switch` the one to three that are
  left.  What the loop does to a block (`mix`), what it does with it (`murmurStep`)
  and the final mixing are each injective, so the hash is injective in the seed
  and in each single block: two seeds never give one hash, and two strings of one
  length that differ in one aligned block, or in the tail alone, have different
  hashes (`murmurHash2_ne`).
-/
import UnisetPanel.Binary
import UnisetPanel.Mixing
import Mathlib.Data.List.TakeDrop

namespace UnisetPanel

namespace Murmur

/-- `m`. -/
def m : UInt32 := 0x5bd1e995

/-- `r`. -/
def r : UInt32 := 24

/-- Four bytes of the data as a word. -/
def word (b₀ b₁ b₂ b₃ : UInt8) : UInt32 :=
  b₀.toUInt32 ||| b₁.toUInt32 <<< 8 ||| b₂.toUInt32 <<< 16 ||| b₃.toUInt32 <<< 24

/-- What the loop does to `k`. -/
def mix (k : UInt32) : UInt32 :=
  let k := k * m
  let k := k ^^^ (k >>> r)
  k * m

/-- What the loop does to `h`. -/
def murmurStep (h k : UInt32) : UInt32 := (h * m) ^^^ mix k

/-- The loop: `h` at its end, and the bytes that are left. -/
def murmurLoop (h : UInt32) : List UInt8 → UInt32 × List UInt8
  | b₀ :: b₁ :: b₂ :: b₃ :: data => murmurLoop (murmurStep h (word b₀ b₁ b₂ b₃)) data
  | data => (h, data)

/-- The `switch`, with its `fallthrough`s. -/
def murmurTail (h : UInt32) : List UInt8 → UInt32
  | [b₀, b₁, b₂] => (h ^^^ b₂.toUInt32 <<< 16 ^^^ b₁.toUInt32 <<< 8 ^^^ b₀.toUInt32) * m
  | [b₀, b₁] => (h ^^^ b₁.toUInt32 <<< 8 ^^^ b₀.toUInt32) * m
  | [b₀] => (h ^^^ b₀.toUInt32) * m
  | _ => h

/-- The final mixing. -/
def murmurFinal (h : UInt32) : UInt32 :=
  let h := h ^^^ (h >>> 13)
  let h := h * m
  h ^^^ (h >>> 15)

/-- `MurmurHash2`. -/
def murmurHash2 (data : List UInt8) (seed : UInt32) : UInt32 :=
  let h := seed ^^^ UInt32.ofNat data.length
  let rest := murmurLoop h data
  murmurFinal (murmurTail rest.1 rest.2)

/-- `Hash32`. -/
def hash32 (s : String) : UInt32 := murmurHash2 s.toByteArray.data.toList 0

/-! ### Words and bytes -/

/-- The words that the loop takes from the data. -/
def blocks : List UInt8 → List UInt32
  | b₀ :: b₁ :: b₂ :: b₃ :: data => word b₀ b₁ b₂ b₃ :: blocks data
  | _ => []

/-- The bytes that the loop leaves. -/
def tail : List UInt8 → List UInt8
  | _ :: _ :: _ :: _ :: data => tail data
  | data => data

theorem toNat_shiftLeft_byte (b : UInt8) {i : UInt32} (hi : i.toNat ≤ 24) :
    (b.toUInt32 <<< i).toNat = b.toNat <<< i.toNat := by
  have hbyte : b.toNat < 2 ^ 8 := b.toNat_lt
  have hfits : b.toNat <<< i.toNat < 2 ^ 32 := by
    rw [Nat.shiftLeft_eq]
    calc
      b.toNat * 2 ^ i.toNat < 2 ^ 8 * 2 ^ i.toNat :=
        Nat.mul_lt_mul_of_pos_right hbyte (Nat.two_pow_pos _)
      _ ≤ 2 ^ 8 * 2 ^ 24 := Nat.mul_le_mul_left _ (Nat.pow_le_pow_right Nat.two_pos hi)
  rw [UInt32.toNat_shiftLeft, Nat.mod_eq_of_lt (by omega : i.toNat < 32), UInt8.toNat_toUInt32]
  exact Nat.mod_eq_of_lt hfits

theorem ofLittleEndian_nil : ofLittleEndian [] = 0 := rfl

/-- **A word is its bytes**, the least first. -/
theorem toNat_word (b₀ b₁ b₂ b₃ : UInt8) :
    (word b₀ b₁ b₂ b₃).toNat = ofLittleEndian [b₀, b₁, b₂, b₃] := by
  have h₀ : b₀.toNat < 2 ^ 8 := b₀.toNat_lt
  have h₁ : b₁.toNat < 2 ^ 8 := b₁.toNat_lt
  have h₂ : b₂.toNat < 2 ^ 8 := b₂.toNat_lt
  have hlow : b₀.toNat ||| b₁.toNat <<< 8 = b₀.toNat + b₁.toNat * 2 ^ 8 := or_shiftLeft_eq_add h₀ _
  have hmiddle : b₀.toNat + b₁.toNat * 2 ^ 8 ||| b₂.toNat <<< 16 =
      b₀.toNat + b₁.toNat * 2 ^ 8 + b₂.toNat * 2 ^ 16 := or_shiftLeft_eq_add (by omega) _
  have hhigh : b₀.toNat + b₁.toNat * 2 ^ 8 + b₂.toNat * 2 ^ 16 ||| b₃.toNat <<< 24 =
      b₀.toNat + b₁.toNat * 2 ^ 8 + b₂.toNat * 2 ^ 16 + b₃.toNat * 2 ^ 24 :=
    or_shiftLeft_eq_add (by omega) _
  have hword : (word b₀ b₁ b₂ b₃).toNat =
      b₀.toNat ||| b₁.toNat <<< 8 ||| b₂.toNat <<< 16 ||| b₃.toNat <<< 24 := by
    rw [word, UInt32.toNat_or, UInt32.toNat_or, UInt32.toNat_or, UInt8.toNat_toUInt32,
      toNat_shiftLeft_byte b₁ (by decide), toNat_shiftLeft_byte b₂ (by decide),
      toNat_shiftLeft_byte b₃ (by decide)]
    rfl
  rw [hword, hlow, hmiddle, hhigh]
  simp only [ofLittleEndian_cons, ofLittleEndian_nil]
  omega

/-- The bytes that the `switch` adds to `h`. -/
def tailWord : List UInt8 → UInt32
  | [b₀, b₁, b₂] => b₂.toUInt32 <<< 16 ^^^ (b₁.toUInt32 <<< 8 ^^^ b₀.toUInt32)
  | [b₀, b₁] => b₁.toUInt32 <<< 8 ^^^ b₀.toUInt32
  | [b₀] => b₀.toUInt32
  | _ => 0

theorem murmurTail_eq (h : UInt32) {bytes : List UInt8} (hlen : bytes.length < 4) :
    murmurTail h bytes = if bytes = [] then h else (h ^^^ tailWord bytes) * m := by
  match bytes with
  | [] => rfl
  | [b₀] => rfl
  | [b₀, b₁] => rw [murmurTail, tailWord, UInt32.xor_assoc]; rfl
  | [b₀, b₁, b₂] => rw [murmurTail, tailWord, UInt32.xor_assoc, UInt32.xor_assoc]; rfl
  | _ :: _ :: _ :: _ :: _ => exact absurd hlen (by simp)

/-- They too are a word of their own. -/
theorem toNat_tailWord {bytes : List UInt8} (hlen : bytes.length < 4) :
    (tailWord bytes).toNat = ofLittleEndian bytes := by
  have hxor (b₀ b₁ : UInt8) : (b₁.toUInt32 <<< 8 ^^^ b₀.toUInt32).toNat =
      b₀.toNat + b₁.toNat * 2 ^ 8 := by
    rw [UInt32.toNat_xor, toNat_shiftLeft_byte b₁ (by decide), UInt8.toNat_toUInt32]
    exact shiftLeft_xor_eq_add b₀.toNat_lt _
  match bytes with
  | [] => rfl
  | [b₀] =>
    rw [tailWord, UInt8.toNat_toUInt32, ofLittleEndian_cons]
    rfl
  | [b₀, b₁] =>
    rw [tailWord, hxor]
    simp only [ofLittleEndian_cons, ofLittleEndian_nil]
    omega
  | [b₀, b₁, b₂] =>
    have h₀ : b₀.toNat < 2 ^ 8 := b₀.toNat_lt
    have h₁ : b₁.toNat < 2 ^ 8 := b₁.toNat_lt
    rw [tailWord, UInt32.toNat_xor, hxor, toNat_shiftLeft_byte b₂ (by decide)]
    have hhigh : b₂.toNat <<< 16 ^^^ (b₀.toNat + b₁.toNat * 2 ^ 8) =
        b₀.toNat + b₁.toNat * 2 ^ 8 + b₂.toNat * 2 ^ 16 := shiftLeft_xor_eq_add (by omega) _
    refine hhigh.trans ?_
    simp only [ofLittleEndian_cons, ofLittleEndian_nil]
    omega
  | _ :: _ :: _ :: _ :: _ => exact absurd hlen (by simp)

/-! ### The loop takes the blocks, one after the other -/

theorem mul_m_injective : Function.Injective fun h : UInt32 => h * m := by
  intro h h' heq
  apply UInt32.toBitVec_inj.mp
  have hodd : m.toBitVec.toNat % 2 = 1 := rfl
  apply mul_right_injective_of_odd hodd
  simpa using congrArg UInt32.toBitVec heq

theorem xor_shiftRight_injective {i : UInt32} (hi : 0 < i.toNat % 32) :
    Function.Injective fun h : UInt32 => h ^^^ (h >>> i) := by
  intro h h' heq
  apply UInt32.toBitVec_inj.mp
  apply xor_ushiftRight_injective hi
  simpa using congrArg UInt32.toBitVec heq

theorem mix_injective : Function.Injective mix :=
  mul_m_injective.comp ((xor_shiftRight_injective (by decide)).comp mul_m_injective)

theorem murmurFinal_injective : Function.Injective murmurFinal :=
  (xor_shiftRight_injective (by decide)).comp
    (mul_m_injective.comp (xor_shiftRight_injective (by decide)))

/-- One round of the loop. -/
def absorber : Absorber UInt32 UInt32 where
  absorb := murmurStep
  injective_state _ _ _ heq := mul_m_injective ((UInt32.xor_left_inj _).mp heq)
  injective_block _ _ _ heq := mix_injective ((UInt32.xor_right_inj _).mp heq)

theorem murmurLoop_eq (h : UInt32) (data : List UInt8) :
    murmurLoop h data = (absorber.absorbAll h (blocks data), tail data) := by
  induction h, data using murmurLoop.induct with
  | case1 h b₀ b₁ b₂ b₃ data ih =>
    rw [murmurLoop, ih]
    rfl
  | case2 h data hshort =>
    match data with
    | [] | [_] | [_, _] | [_, _, _] => rfl
    | b₀ :: b₁ :: b₂ :: b₃ :: data => exact absurd rfl (hshort b₀ b₁ b₂ b₃ data)

theorem length_tail (data : List UInt8) : (tail data).length = data.length % 4 := by
  induction data using tail.induct with
  | case1 b₀ b₁ b₂ b₃ data ih =>
    rw [tail, ih]
    simp only [List.length_cons]
    omega
  | case2 data hshort =>
    match data with
    | [] | [_] | [_, _] | [_, _, _] => rfl
    | b₀ :: b₁ :: b₂ :: b₃ :: data => exact absurd rfl (hshort b₀ b₁ b₂ b₃ data)

/-- Data that begins with whole blocks. -/
theorem blocks_tail_append {pre : List UInt8} (hpre : pre.length % 4 = 0) (data : List UInt8) :
    blocks (pre ++ data) = blocks pre ++ blocks data ∧ tail (pre ++ data) = tail data := by
  induction pre using tail.induct with
  | case1 b₀ b₁ b₂ b₃ pre ih =>
    have hpre : pre.length % 4 = 0 := by
      simp only [List.length_cons] at hpre
      omega
    obtain ⟨hblocks, htail⟩ := ih hpre
    exact ⟨congrArg (word b₀ b₁ b₂ b₃ :: ·) hblocks, htail⟩
  | case2 pre hshort =>
    match pre with
    | [] => exact ⟨rfl, rfl⟩
    | [_] | [_, _] | [_, _, _] => simp at hpre
    | b₀ :: b₁ :: b₂ :: b₃ :: pre => exact absurd rfl (hshort b₀ b₁ b₂ b₃ pre)

theorem murmurTail_injective {bytes : List UInt8} (hlen : bytes.length < 4) :
    Function.Injective fun h => murmurTail h bytes := by
  intro h h' heq
  simp only [murmurTail_eq _ hlen] at heq
  split_ifs at heq
  · exact heq
  · exact (UInt32.xor_left_inj _).mp (mul_m_injective heq)

/-- The bytes that are left can be told from what the `switch` makes of them. -/
theorem murmurTail_ne {bytes bytes' : List UInt8} (h : UInt32) (hlen : bytes.length < 4)
    (hlen' : bytes.length = bytes'.length) (hne : bytes ≠ bytes') :
    murmurTail h bytes ≠ murmurTail h bytes' := by
  rw [murmurTail_eq h hlen, murmurTail_eq h (hlen' ▸ hlen)]
  have hnil : bytes ≠ [] := by
    rintro rfl
    exact hne (List.eq_nil_of_length_eq_zero hlen'.symm).symm
  have hnil' : bytes' ≠ [] := by
    rintro rfl
    exact hne (List.eq_nil_of_length_eq_zero hlen')
  rw [if_neg hnil, if_neg hnil']
  intro heq
  have hword := (UInt32.xor_right_inj _).mp (mul_m_injective heq)
  apply hne
  apply eq_of_ofLittleEndian_eq hlen'
  rw [← toNat_tailWord hlen, ← toNat_tailWord (hlen' ▸ hlen), hword]

theorem word_ne {bytes bytes' : List UInt8} (hlen : bytes.length = 4) (hlen' : bytes'.length = 4)
    (hne : bytes ≠ bytes') : ∃ k k', blocks bytes = [k] ∧ blocks bytes' = [k'] ∧ k ≠ k' := by
  match bytes, bytes' with
  | [b₀, b₁, b₂, b₃], [c₀, c₁, c₂, c₃] =>
    refine ⟨_, _, rfl, rfl, ?_⟩
    intro heq
    apply hne
    apply eq_of_ofLittleEndian_eq (hlen.trans hlen'.symm)
    rw [← toNat_word, ← toNat_word, heq]

/-! ### Strings that differ in one place -/

/-- The strings have one length and differ, and only from `lo` up to `hi`. -/
structure DifferOnlyWithin (data data' : List UInt8) (lo hi : ℕ) : Prop where
  length : data.length = data'.length
  ne : data ≠ data'
  within : ∀ j, data[j]? ≠ data'[j]? → lo ≤ j ∧ j < hi

instance (data data' : List UInt8) (lo hi : ℕ) : Decidable (DifferOnlyWithin data data' lo hi) :=
  decidable_of_iff (data.length = data'.length ∧ data ≠ data' ∧
      ∀ j < data.length, data[j]? ≠ data'[j]? → lo ≤ j ∧ j < hi) <| by
    constructor
    · rintro ⟨hlen, hne, hwithin⟩
      refine ⟨hlen, hne, fun j hj => ?_⟩
      by_cases hlt : j < data.length
      · exact hwithin j hlt hj
      · -- beyond the end there is nothing in either
        exact absurd (by rw [List.getElem?_eq_none (by omega), List.getElem?_eq_none (by omega)]) hj
    · intro h
      exact ⟨h.length, h.ne, fun j _ => h.within j⟩

/-- Such strings, taken apart. -/
theorem DifferOnlyWithin.exists_eq_append {data data' : List UInt8} {lo hi : ℕ}
    (h : DifferOnlyWithin data data' lo hi) (hle : lo ≤ hi) (hhi : hi ≤ data.length) :
    ∃ pre mid mid' post, data = pre ++ (mid ++ post) ∧ data' = pre ++ (mid' ++ post) ∧
      pre.length = lo ∧ mid.length = hi - lo ∧ mid'.length = hi - lo ∧ mid ≠ mid' := by
  have hsplit (xs : List UInt8) :
      xs = xs.take lo ++ ((xs.drop lo).take (hi - lo) ++ xs.drop hi) := by
    have hdrop : xs.drop hi = (xs.drop lo).drop (hi - lo) := by
      rw [List.drop_drop]
      congr 1
      omega
    rw [hdrop, List.take_append_drop, List.take_append_drop]
  have hpre : data.take lo = data'.take lo := by
    apply List.ext_getElem?
    intro j
    rw [List.getElem?_take, List.getElem?_take]
    split_ifs with hj
    · by_contra hne
      have := h.within j hne
      omega
    · rfl
  have hpost : data.drop hi = data'.drop hi := by
    apply List.ext_getElem?
    intro j
    rw [List.getElem?_drop, List.getElem?_drop]
    by_contra hne
    have := h.within _ hne
    omega
  refine ⟨data.take lo, (data.drop lo).take (hi - lo), (data'.drop lo).take (hi - lo),
    data.drop hi, hsplit data, ?_, ?_, ?_, ?_, ?_⟩
  · rw [hpre, hpost]
    exact hsplit data'
  · rw [List.length_take]
    omega
  · rw [List.length_take, List.length_drop]
    omega
  · have := h.length
    rw [List.length_take, List.length_drop]
    omega
  · intro hmid
    apply h.ne
    rw [hsplit data, hsplit data', hpre, hmid, hpost]

/-! ### The hash -/

theorem murmurHash2_eq (data : List UInt8) (seed : UInt32) :
    murmurHash2 data seed = murmurFinal (murmurTail
      (absorber.absorbAll (seed ^^^ UInt32.ofNat data.length) (blocks data)) (tail data)) := by
  rw [murmurHash2, murmurLoop_eq]

theorem length_tail_lt (data : List UInt8) : (tail data).length < 4 := by
  rw [length_tail]
  exact Nat.mod_lt _ (by decide)

/-- **Two seeds never give one hash.** -/
theorem murmurHash2_seed_injective (data : List UInt8) :
    Function.Injective (murmurHash2 data) := by
  intro seed seed' heq
  rw [murmurHash2_eq, murmurHash2_eq] at heq
  have hstate := murmurTail_injective (length_tail_lt data) (murmurFinal_injective heq)
  exact (UInt32.xor_left_inj _).mp (absorber.absorbAll_injective _ hstate)

/-- Strings that differ in one block have different hashes. -/
theorem murmurHash2_ne_of_block (seed : UInt32) {data data' : List UInt8} {i : ℕ}
    (hi : 4 * i + 4 ≤ data.length) (h : DifferOnlyWithin data data' (4 * i) (4 * i + 4)) :
    murmurHash2 data seed ≠ murmurHash2 data' seed := by
  obtain ⟨pre, mid, mid', post, hdata, hdata', hpre, hmid, hmid', hne⟩ :=
    h.exists_eq_append (by omega) hi
  obtain ⟨k, k', hk, hk', hword⟩ := word_ne (by omega) (by omega) hne
  have hsplit (bytes : List UInt8) (hlen : bytes.length = 4 * i + 4 - 4 * i) :
      blocks (pre ++ (bytes ++ post)) = blocks pre ++ (blocks bytes ++ blocks post) ∧
        tail (pre ++ (bytes ++ post)) = tail post := by
    obtain ⟨hblocks, htail⟩ := blocks_tail_append (by omega : pre.length % 4 = 0) (bytes ++ post)
    obtain ⟨hblocks', htail'⟩ := blocks_tail_append (by omega : bytes.length % 4 = 0) post
    exact ⟨by rw [hblocks, hblocks'], htail.trans htail'⟩
  obtain ⟨hblocks, htail⟩ := hsplit mid hmid
  obtain ⟨hblocks', htail'⟩ := hsplit mid' hmid'
  rw [murmurHash2_eq, murmurHash2_eq, ← h.length, hdata, hdata', hblocks, hblocks', htail, htail',
    hk, hk']
  intro heq
  exact absorber.absorbAll_ne_of_block _ _ _ hword
    (murmurTail_injective (length_tail_lt post) (murmurFinal_injective heq))

/-- Strings that differ in the tail have different hashes. -/
theorem murmurHash2_ne_of_tail (seed : UInt32) {data data' : List UInt8}
    (h : DifferOnlyWithin data data' (data.length - data.length % 4) data.length) :
    murmurHash2 data seed ≠ murmurHash2 data' seed := by
  obtain ⟨pre, mid, mid', post, hdata, hdata', hpre, hmid, hmid', hne⟩ :=
    h.exists_eq_append (by omega) le_rfl
  have hpost : post = [] := by
    apply List.eq_nil_of_length_eq_zero
    have hlen := congrArg List.length hdata
    rw [List.length_append, List.length_append] at hlen
    omega
  have hsplit (bytes : List UInt8) (hlen : bytes.length < 4) :
      blocks (pre ++ (bytes ++ post)) = blocks pre ∧ tail (pre ++ (bytes ++ post)) = bytes := by
    obtain ⟨hblocks, htail⟩ := blocks_tail_append (by omega : pre.length % 4 = 0) (bytes ++ post)
    rw [hpost, List.append_nil] at hblocks htail ⊢
    match bytes with
    | [] | [_] | [_, _] | [_, _, _] => exact ⟨hblocks.trans (List.append_nil _), htail⟩
  obtain ⟨hblocks, htail⟩ := hsplit mid (by omega)
  obtain ⟨hblocks', htail'⟩ := hsplit mid' (by omega)
  rw [murmurHash2_eq, murmurHash2_eq, ← h.length, hdata, hdata', hblocks, hblocks', htail, htail']
  intro heq
  exact murmurTail_ne _ (by omega) (by omega) hne (murmurFinal_injective heq)

/-- **The hash is injective where it must be**: in the seed, in each aligned block of four bytes, and
in the tail. -/
theorem murmurHash2_ne :
    (∀ (data : List UInt8) (seed seed' : UInt32), seed ≠ seed' →
      murmurHash2 data seed ≠ murmurHash2 data seed') ∧
    (∀ (seed : UInt32) (data data' : List UInt8) (i : ℕ), 4 * i + 4 ≤ data.length →
      DifferOnlyWithin data data' (4 * i) (4 * i + 4) →
      murmurHash2 data seed ≠ murmurHash2 data' seed) ∧
    ∀ (seed : UInt32) (data data' : List UInt8),
      DifferOnlyWithin data data' (data.length - data.length % 4) data.length →
      murmurHash2 data seed ≠ murmurHash2 data' seed := by
  refine ⟨?_, ?_, ?_⟩
  · intro data seed seed' hne heq
    exact hne (murmurHash2_seed_injective data heq)
  · intro seed data data' i hi h
    exact murmurHash2_ne_of_block seed hi h
  · intro seed data data' h
    exact murmurHash2_ne_of_tail seed h

/-- The hashes of "test" under two seeds, and of five bytes with one of them changed. -/
theorem murmurHash2_ne_fiveBytes :
    murmurHash2 [116, 101, 115, 116] 0 ≠ murmurHash2 [116, 101, 115, 116] 1 ∧
    murmurHash2 [1, 2, 3, 4, 5] 0 ≠ murmurHash2 [1, 2, 0, 4, 5] 0 ∧
    murmurHash2 [1, 2, 3, 4, 5] 0 ≠ murmurHash2 [1, 2, 3, 4, 6] 0 :=
  ⟨murmurHash2_ne.1 _ _ _ (by decide), murmurHash2_ne.2.1 _ _ _ 0 (by decide) (by decide),
    murmurHash2_ne.2.2 _ _ _ (by decide)⟩

example : hash32 "test" = 403862830 := by decide

example : hash32 "" = 0 := by decide

end Murmur

end UnisetPanel
