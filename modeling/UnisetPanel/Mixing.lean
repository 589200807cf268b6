/-
  `Mixing` — steps of a hash that lose nothing.

  A hash over machine words multiplies by odd constants and adds shifted bits,
  and each of these is undone by the next reader: an odd factor cancels modulo
  `2 ^ w` (`mul_right_injective_of_odd`), and a word can be told from its exclusive
  or with itself shifted (`xor_ushiftRight_injective`).

  An `Absorber` takes blocks into a state, one after the other, and loses neither
  the state nor the block.  So two states that differ still do after the same
  blocks (`absorbAll_injective`), and two lists of blocks that differ in one place
  lead to different states (`absorbAll_ne_of_block`).  Nothing is said about two
  lists that differ in more than one.
-/
import Mathlib.Data.Nat.ModEq
import Mathlib.Logic.Function.Basic

namespace UnisetPanel

open Function

/-! ### Bits that do not meet -/

/-- Low bits and shifted ones do not meet: or adds them. -/
theorem or_shiftLeft_eq_add {i b : ℕ} (hb : b < 2 ^ i) (a : ℕ) : b ||| a <<< i = b + a * 2 ^ i := by
  rw [Nat.or_comm, ← Nat.shiftLeft_add_eq_or_of_lt hb, Nat.shiftLeft_eq, Nat.add_comm]

/-- And so does exclusive or. -/
theorem shiftLeft_xor_eq_add {i b : ℕ} (hb : b < 2 ^ i) (a : ℕ) : a <<< i ^^^ b = b + a * 2 ^ i := by
  rw [← or_shiftLeft_eq_add hb]
  apply Nat.eq_of_testBit_eq
  intro j
  rw [Nat.testBit_xor, Nat.testBit_or, Nat.testBit_shiftLeft]
  by_cases hj : i ≤ j
  · have hlow : b.testBit j = false :=
      Nat.testBit_lt_two_pow (hb.trans_le (Nat.pow_le_pow_right Nat.two_pos hj))
    rw [hlow, Bool.xor_false, Bool.false_or]
  · simp [hj]

/-! ### Words -/

variable {w : ℕ}

/-- **An odd factor cancels.** -/
theorem mul_right_injective_of_odd {m : BitVec w} (hm : m.toNat % 2 = 1) :
    Injective fun x : BitVec w => x * m := by
  intro x y h
  have hcoprime : Nat.gcd (2 ^ w) m.toNat = 1 := by
    apply Nat.Coprime.pow_left
    show Nat.gcd 2 m.toNat = 1
    rw [Nat.gcd_rec, hm, Nat.gcd_one_left]
  have hmod : x.toNat * m.toNat ≡ y.toNat * m.toNat [MOD 2 ^ w] := by
    have hnat := congrArg BitVec.toNat h
    simp only [BitVec.toNat_mul] at hnat
    exact hnat
  have hcancel := Nat.ModEq.cancel_right_of_coprime hcoprime hmod
  apply BitVec.eq_of_toNat_eq
  rw [← Nat.mod_eq_of_lt x.isLt, ← Nat.mod_eq_of_lt y.isLt]
  exact hcancel

/-- **A word can be told from its exclusive or with itself shifted.** -/
theorem xor_ushiftRight_injective {r : ℕ} (hr : 0 < r) :
    Injective fun x : BitVec w => x ^^^ (x >>> r) := by
  intro x y h
  -- the difference of the two is its own shift, so it is zero
  have hshift : (x ^^^ y) >>> r = x ^^^ y := by
    rw [BitVec.ushiftRight_xor_distrib]
    have h : x ^^^ (x >>> r) = y ^^^ (y >>> r) := h
    calc
      (x >>> r) ^^^ (y >>> r) = (x ^^^ (x ^^^ (x >>> r))) ^^^ (y >>> r) := by
        rw [← BitVec.xor_assoc, BitVec.xor_self, BitVec.zero_xor]
      _ = (x ^^^ (y ^^^ (y >>> r))) ^^^ (y >>> r) := by rw [h]
      _ = x ^^^ y := by
        rw [BitVec.xor_assoc, BitVec.xor_assoc, BitVec.xor_self, BitVec.xor_zero]
  have hzero : (x ^^^ y).toNat = 0 := by
    have hdiv := congrArg BitVec.toNat hshift
    rw [BitVec.toNat_ushiftRight, Nat.shiftRight_eq_div_pow] at hdiv
    by_contra hne
    have hlt := Nat.div_lt_self (Nat.pos_of_ne_zero hne) (Nat.one_lt_two_pow hr.ne')
    omega
  have hxor : x ^^^ y = y ^^^ y := by
    rw [BitVec.xor_self]
    exact BitVec.eq_of_toNat_eq (by rw [hzero, BitVec.toNat_zero])
  exact (BitVec.xor_left_inj y).mp hxor

/-! ### Blocks -/

/-- A step that takes a block into a state and loses neither. -/
structure Absorber (σ β : Type*) where
  absorb : σ → β → σ
  injective_state : ∀ b, Injective fun s => absorb s b
  injective_block : ∀ s, Injective (absorb s)

namespace Absorber

variable {σ β : Type*} (A : Absorber σ β)

/-- All blocks of a list, in order. -/
def absorbAll (s : σ) (blocks : List β) : σ := blocks.foldl A.absorb s

theorem absorbAll_append (s : σ) (bs cs : List β) :
    A.absorbAll s (bs ++ cs) = A.absorbAll (A.absorbAll s bs) cs :=
  List.foldl_append

/-- **Two states that differ still do after the same blocks.** -/
theorem absorbAll_injective (blocks : List β) : Injective fun s => A.absorbAll s blocks := by
  induction blocks with
  | nil => exact injective_id
  | cons b blocks ih => exact ih.comp (A.injective_state b)

/-- **One block that differs makes the states differ.** -/
theorem absorbAll_ne_of_block (s : σ) (pre post : List β) {b c : β} (h : b ≠ c) :
    A.absorbAll s (pre ++ b :: post) ≠ A.absorbAll s (pre ++ c :: post) := by
  rw [absorbAll_append, absorbAll_append]
  intro heq
  exact h (A.injective_block _ (A.absorbAll_injective post heq))

end Absorber

end UnisetPanel
