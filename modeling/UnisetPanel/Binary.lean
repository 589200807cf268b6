/-
  `Binary` — records of fixed width, field by field.

  A `FieldCodec` writes a value as a fixed number of bytes and reads it back
  from them: `decode` after `encode` is the value again, and `encode` after
  `decode` the same bytes.  Reading a field from the front of a buffer
  (`FieldCodec.read`) then takes off just what `encode` writes
  (`read_encode_append`, `eq_of_read_eq_some`), which is all a format of several
  fields needs.  The fields here are unsigned integers, the least byte first,
  and arrays of bytes.
-/
import Mathlib.Data.Nat.Digits.Defs

namespace UnisetPanel

/-! ### The least byte first -/

/-- The `w` low bytes of a number, the least first. -/
def littleEndian : ℕ → ℕ → List UInt8
  | 0, _ => []
  | w + 1, n => UInt8.ofNat n :: littleEndian w (n / 256)

/-- The number that has these bytes, the least first. -/
def ofLittleEndian (bytes : List UInt8) : ℕ := Nat.ofDigits 256 (bytes.map UInt8.toNat)

@[simp] theorem length_littleEndian (w n : ℕ) : (littleEndian w n).length = w := by
  induction w generalizing n with
  | zero => rfl
  | succ w ih => exact congrArg Nat.succ (ih (n / 256))

theorem ofLittleEndian_cons (b : UInt8) (bytes : List UInt8) :
    ofLittleEndian (b :: bytes) = b.toNat + 256 * ofLittleEndian bytes :=
  Nat.ofDigits_cons

theorem ofLittleEndian_lt (bytes : List UInt8) : ofLittleEndian bytes < 256 ^ bytes.length := by
  induction bytes with
  | nil => exact Nat.zero_lt_one
  | cons b bytes ih =>
    have hb : b.toNat < 256 := b.toNat_lt
    rw [ofLittleEndian_cons, List.length_cons, Nat.pow_succ]
    omega

/-- What is written in few bytes is read modulo their range. -/
theorem ofLittleEndian_littleEndian (w n : ℕ) :
    ofLittleEndian (littleEndian w n) = n % 256 ^ w := by
  induction w generalizing n with
  | zero => exact (Nat.mod_one n).symm
  | succ w ih =>
    have hbyte : (UInt8.ofNat n).toNat = n % 256 := UInt8.toNat_ofNat'
    rw [littleEndian, ofLittleEndian_cons, ih, hbyte, Nat.pow_succ', Nat.mod_mul]

/-- What is read is written with the same bytes. -/
theorem littleEndian_ofLittleEndian (bytes : List UInt8) :
    littleEndian bytes.length (ofLittleEndian bytes) = bytes := by
  induction bytes with
  | nil => rfl
  | cons b bytes ih =>
    have hb : b.toNat < 256 := b.toNat_lt
    have hmod : (b.toNat + 256 * ofLittleEndian bytes) % 256 = b.toNat := by omega
    have hdiv : (b.toNat + 256 * ofLittleEndian bytes) / 256 = ofLittleEndian bytes := by omega
    have hbyte : UInt8.ofNat (b.toNat + 256 * ofLittleEndian bytes) = b := by
      apply UInt8.toNat_inj.mp
      rw [UInt8.toNat_ofNat']
      exact hmod
    rw [List.length_cons, ofLittleEndian_cons, littleEndian, hdiv, hbyte, ih]

/-- Strings of one length that read as one number are equal. -/
theorem eq_of_ofLittleEndian_eq {bytes bytes' : List UInt8} (hlen : bytes.length = bytes'.length)
    (h : ofLittleEndian bytes = ofLittleEndian bytes') : bytes = bytes' := by
  rw [← littleEndian_ofLittleEndian bytes, hlen, h, littleEndian_ofLittleEndian]

/-! ### Fields -/

/-- A field of fixed width. -/
structure FieldCodec (α : Type*) where
  width : ℕ
  encode : α → List UInt8
  /-- only ever applied to `width` bytes -/
  decode : List UInt8 → α
  length_encode : ∀ x, (encode x).length = width
  decode_encode : ∀ x, decode (encode x) = x
  encode_decode : ∀ bytes, bytes.length = width → encode (decode bytes) = bytes

namespace FieldCodec

/-- `uint8`. -/
def uint8 : FieldCodec UInt8 where
  width := 1
  encode x := littleEndian 1 x.toNat
  decode bytes := UInt8.ofNat (ofLittleEndian bytes)
  length_encode x := length_littleEndian 1 x.toNat
  decode_encode x := by
    have hx : x.toNat < 256 ^ 1 := x.toNat_lt
    rw [ofLittleEndian_littleEndian, Nat.mod_eq_of_lt hx, UInt8.ofNat_toNat]
  encode_decode bytes h := by
    have hlt : ofLittleEndian bytes < 256 ^ 1 := h ▸ ofLittleEndian_lt bytes
    rw [UInt8.toNat_ofNat_of_lt' hlt, ← h, littleEndian_ofLittleEndian]

/-- `uint32`. -/
def uint32 : FieldCodec UInt32 where
  width := 4
  encode x := littleEndian 4 x.toNat
  decode bytes := UInt32.ofNat (ofLittleEndian bytes)
  length_encode x := length_littleEndian 4 x.toNat
  decode_encode x := by
    have hx : x.toNat < 256 ^ 4 := x.toNat_lt
    rw [ofLittleEndian_littleEndian, Nat.mod_eq_of_lt hx, UInt32.ofNat_toNat]
  encode_decode bytes h := by
    have hlt : ofLittleEndian bytes < 256 ^ 4 := h ▸ ofLittleEndian_lt bytes
    rw [UInt32.toNat_ofNat_of_lt' hlt, ← h, littleEndian_ofLittleEndian]

/-- An array of bytes. -/
def byteArray (n : ℕ) : FieldCodec (Vector UInt8 n) where
  width := n
  encode x := x.toList
  decode bytes := Vector.ofFn fun i => bytes.getD i 0
  length_encode x := x.length_toList
  decode_encode x := by
    apply Vector.ext
    intro i hi
    simp [List.getD_eq_getElem?_getD]
  encode_decode bytes h := by
    apply List.ext_getElem
    · rw [Vector.length_toList, h]
    · intro i _ hi
      simp [List.getD_eq_getElem?_getD, hi]

variable {α : Type*} (c : FieldCodec α)

/-- Take a field off the front of a buffer. -/
def read (buf : List UInt8) : Option (α × List UInt8) :=
  if c.width ≤ buf.length then some (c.decode (buf.take c.width), buf.drop c.width) else none

variable {c}

/-- **What is written is read back**, and the buffer goes on after it. -/
theorem read_encode_append (x : α) (rest : List UInt8) :
    c.read (c.encode x ++ rest) = some (x, rest) := by
  have hwidth := c.length_encode x
  have hle : c.width ≤ (c.encode x ++ rest).length := by
    rw [List.length_append]
    omega
  rw [read, if_pos hle, List.take_left' hwidth, List.drop_left' hwidth, c.decode_encode]

/-- **What is read was written.** -/
theorem eq_of_read_eq_some {buf rest : List UInt8} {x : α} (h : c.read buf = some (x, rest)) :
    buf = c.encode x ++ rest := by
  unfold read at h
  split_ifs at h with hle
  obtain ⟨rfl, rfl⟩ := Prod.mk.inj (Option.some.inj h)
  rw [c.encode_decode _ (List.length_take_of_le hle), List.take_append_drop]

end FieldCodec

end UnisetPanel
