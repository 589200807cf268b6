/-
  `QueryString` — the query of a URL: escaping, `url.Values.Encode` and
  `url.ParseQuery`.

  A query is a list of pairs, written `key=value` with `&` between them.  Keys
  and values are escaped, so that the signs with a meaning never stand inside
  them (`mem_escape`); the reading splits at these signs and takes the escapes
  back.  Reading what was written gives the pairs again, in their order
  (`parse_encode`).
-/
import UnisetPanel.ByteText
import Mathlib.Data.List.Sort

namespace UnisetPanel.QueryString

open ByteText

/-! ### Escaping -/

/-- The bytes that stand for themselves: letters, digits and `-_.~`. -/
def Unreserved (b : UInt8) : Prop :=
  97 ≤ b.toNat ∧ b.toNat ≤ 122 ∨ 65 ≤ b.toNat ∧ b.toNat ≤ 90 ∨ IsDigit b ∨
    b = 45 ∨ b = 95 ∨ b = 46 ∨ b = 126

instance (b : UInt8) : Decidable (Unreserved b) := inferInstanceAs (Decidable (_ ∨ _))

/-- A digit of `upperhex`. -/
def upperhex (n : ℕ) : UInt8 := if n < 10 then (48 + n).toUInt8 else (55 + n).toUInt8

/-- `ishex` and `unhex`. -/
def unhex (b : UInt8) : Option ℕ :=
  if IsDigit b then some (b.toNat - 48)
  else if 97 ≤ b.toNat ∧ b.toNat ≤ 102 then some (b.toNat - 87)
  else if 65 ≤ b.toNat ∧ b.toNat ≤ 70 then some (b.toNat - 55)
  else none

/-- `url.QueryEscape`, of one byte: a space becomes `+`, what is not unreserved `%XX`. -/
def escapeByte (b : UInt8) : Bytes :=
  if Unreserved b then [b]
  else if b = 32 then [43]
  else [37, upperhex (b.toNat / 16), upperhex (b.toNat % 16)]

/-- `url.QueryEscape`. -/
def escape (s : Bytes) : Bytes := s.flatMap escapeByte

/-- `url.QueryUnescape`; without `plus`, `url.PathUnescape`, where `+` is a plus. -/
def unescape (plus : Bool) : Bytes → Option Bytes
  | [] => some []
  | b :: s =>
    if b = 37 then
      match s with
      | h :: l :: rest =>
        (unhex h).bind fun x => (unhex l).bind fun y =>
          (unescape plus rest).map fun t => (16 * x + y).toUInt8 :: t
      | _ => none
    else (unescape plus s).map fun t => (if plus && b = 43 then 32 else b) :: t

theorem unhex_upperhex : ∀ n < 16, unhex (upperhex n) = some n := by decide

theorem upperhex_cases : ∀ n < 16, IsDigit (upperhex n) ∨
    65 ≤ (upperhex n).toNat ∧ (upperhex n).toNat ≤ 70 := by decide

/-- The bytes of an escaped text. -/
def Escaped (b : UInt8) : Prop := Unreserved b ∨ b = 43 ∨ b = 37

instance (b : UInt8) : Decidable (Escaped b) := inferInstanceAs (Decidable (_ ∨ _))

/-- **No sign that separates stands in an escaped text.** -/
theorem mem_escape {s : Bytes} {b : UInt8} (h : b ∈ escape s) : Escaped b := by
  obtain ⟨c, -, hb⟩ := List.mem_flatMap.mp h
  have hhex : ∀ n < 16, Escaped (upperhex n) := by
    intro n hn
    refine .inl ?_
    rcases upperhex_cases n hn with hd | hu
    · exact .inr (.inr (.inl hd))
    · exact .inr (.inl ⟨hu.1, by omega⟩)
  have hc : c.toNat < 256 := UInt8.toNat_lt c
  unfold escapeByte at hb
  split_ifs at hb with hun hsp
  · rw [List.mem_singleton.mp hb]; exact .inl hun
  · rw [List.mem_singleton.mp hb]; exact .inr (.inl rfl)
  · simp only [List.mem_cons, List.not_mem_nil, or_false] at hb
    rcases hb with rfl | rfl | rfl
    · exact .inr (.inr rfl)
    · exact hhex _ (by omega)
    · exact hhex _ (by omega)

theorem notMem_escape (s : Bytes) {b : UInt8} (h : ¬ Escaped b) : b ∉ escape s :=
  fun hb => h (mem_escape hb)

theorem unescape_cons {plus : Bool} {b : UInt8} (h : b ≠ 37) (s : Bytes) :
    unescape plus (b :: s) =
      (unescape plus s).map fun t => (if plus && b = 43 then 32 else b) :: t := by
  conv_lhs => unfold unescape
  exact if_neg h

/-- Text without `%` and, in a query, without `+` stands for itself. -/
theorem unescape_of_plain {plus : Bool} {s : Bytes} (h37 : 37 ∉ s)
    (h43 : plus = true → 43 ∉ s) : unescape plus s = some s := by
  induction s with
  | nil => rfl
  | cons b s ih =>
    have hb : b ≠ 37 := fun hb => h37 (hb ▸ List.mem_cons_self)
    have hp : ¬ (plus = true ∧ b = 43) := fun hp => h43 hp.1 (hp.2 ▸ List.mem_cons_self)
    rw [unescape_cons hb, ih (fun h => h37 (List.mem_cons_of_mem b h))
      (fun hpl h => h43 hpl (List.mem_cons_of_mem b h))]
    simp [hp]

theorem unescape_escapeByte (b : UInt8) (rest : Bytes) :
    unescape true (escapeByte b ++ rest) = (unescape true rest).map fun t => b :: t := by
  have hlt : b.toNat < 256 := UInt8.toNat_lt b
  unfold escapeByte
  split_ifs with hun hsp
  · have h37 : b ≠ 37 := by rintro rfl; revert hun; decide
    have h43 : b ≠ 43 := by rintro rfl; revert hun; decide
    rw [List.singleton_append, unescape_cons h37]
    simp [h43]
  · subst hsp
    rw [List.singleton_append, unescape_cons (by decide)]
    simp
  · have hback : (16 * (b.toNat / 16) + b.toNat % 16).toUInt8 = b := by
      rw [Nat.div_add_mod]
      exact UInt8.ofNat_toNat
    show unescape true (37 :: upperhex (b.toNat / 16) :: upperhex (b.toNat % 16) :: rest) = _
    rw [unescape, if_pos rfl]
    simp only [unhex_upperhex _ (show b.toNat / 16 < 16 by omega),
      unhex_upperhex _ (show b.toNat % 16 < 16 by omega), Option.bind_some, hback]

/-- **What is escaped is read back**, and the rest is read after it. -/
theorem unescape_escape_append (s rest : Bytes) :
    unescape true (escape s ++ rest) = (unescape true rest).map fun t => s ++ t := by
  induction s with
  | nil => simp [escape]
  | cons b s ih =>
    have hcons : escape (b :: s) = escapeByte b ++ escape s := rfl
    rw [hcons, List.append_assoc, unescape_escapeByte, ih, Option.map_map]
    rfl

@[simp] theorem unescape_escape (s : Bytes) : unescape true (escape s) = some s := by
  have h := unescape_escape_append s []
  simpa [unescape] using h

/-! ### Queries -/

/-- A parameter of a query: its key and its value. -/
abbrev Param := Bytes × Bytes

/-- `key=value`, escaped. -/
def encodeParam (p : Param) : Bytes := escape p.1 ++ 61 :: escape p.2

/-- Parameters in the order they are written. -/
def encode (ps : List Param) : Bytes := [38].intercalate (ps.map encodeParam)

/-- One piece between `&` and `&` of `url.ParseQuery`: without `=` it is a key with an empty value;
with `;`, with a wrong escape, or empty, it is left out. -/
def parseParam (s : Bytes) : Option Param :=
  if s = [] ∨ 59 ∈ s then none
  else
    (unescape true (cut 61 s).1).bind fun key =>
      (unescape true (cut 61 s).2).map fun value => (key, value)

/-- `url.ParseQuery`, as `URL.Query` uses it: the pieces that can be read. -/
def parse (s : Bytes) : List Param := (s.splitOn 38).filterMap parseParam

theorem mem_encodeParam {p : Param} {b : UInt8} (h : b ∈ encodeParam p) :
    Escaped b ∨ b = 61 := by
  rcases List.mem_append.mp h with h | h
  · exact .inl (mem_escape h)
  · rcases List.mem_cons.mp h with h | h
    · exact .inr h
    · exact .inl (mem_escape h)

theorem notMem_encodeParam (p : Param) {b : UInt8} (h : ¬ Escaped b) (h61 : b ≠ 61) :
    b ∉ encodeParam p := by
  intro hb
  rcases mem_encodeParam hb with hb | hb
  · exact h hb
  · exact h61 hb

@[simp] theorem parseParam_encodeParam (p : Param) : parseParam (encodeParam p) = some p := by
  have hne : encodeParam p ≠ [] := by simp [encodeParam]
  have h59 : 59 ∉ encodeParam p := notMem_encodeParam p (by decide) (by decide)
  have hcut : cut 61 (encodeParam p) = (escape p.1, escape p.2) :=
    cut_append (notMem_escape p.1 (by decide)) (escape p.2)
  unfold parseParam
  rw [if_neg (by simp [hne, h59]), hcut]
  simp

/-- **A query is read back**: the same parameters in the same order. -/
@[simp] theorem parse_encode (ps : List Param) : parse (encode ps) = ps := by
  unfold parse encode
  cases ps with
  | nil => rfl
  | cons p ps =>
    rw [List.splitOn_intercalate 38]
    · have hcomp : parseParam ∘ encodeParam = some := funext parseParam_encodeParam
      rw [List.filterMap_map, hcomp, List.filterMap_some]
    · intro s hs
      obtain ⟨q, -, rfl⟩ := List.mem_map.mp hs
      exact notMem_encodeParam q (by decide) (by decide)
    · simp

/-- A query before another one, with `&` between. -/
theorem parse_append (s t : Bytes) : parse (s ++ 38 :: t) = parse s ++ parse t := by
  unfold parse
  rw [List.splitOn_append_cons_self, List.filterMap_append]

end UnisetPanel.QueryString
