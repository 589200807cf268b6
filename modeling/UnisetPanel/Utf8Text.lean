/-
  `Utf8Text` — texts and their bytes in UTF-8.

  A Go string is any bytes.  `runes` reads it from the front, as a loop of
  `utf8.DecodeRuneInString` does: a character where its bytes stand, and otherwise
  one byte that is no character.  The bytes of a text are read as its characters
  (`runes_utf8`), and a byte that is none can be shown as U+FFFD (`shown`).
-/
import UnisetPanel.ByteText

namespace UnisetPanel

/-- The bytes of a Go string. -/
def utf8 (s : String) : Bytes := s.toByteArray.data.toList

theorem utf8_injective {s t : String} (h : utf8 s = utf8 t) : s = t := by
  have hdata : s.toByteArray.data = t.toByteArray.data := Array.toList_inj.mp h
  have hbytes : s.toByteArray = t.toByteArray := by
    cases hs : s.toByteArray
    cases ht : t.toByteArray
    rw [hs, ht] at hdata
    exact congrArg ByteArray.mk hdata
  exact String.toByteArray_inj.mp hbytes

/-- The characters of a text give its bytes one after the other. -/
theorem utf8_eq_flatMap (s : String) : utf8 s = s.toList.flatMap String.utf8EncodeChar := by
  unfold utf8
  rw [← String.utf8Encode_toList, List.utf8Encode, List.data_toByteArray]

/-- The character at the front of the bytes, if its bytes stand there. -/
def frontChar (bytes : Bytes) : Option Char := (ByteArray.mk bytes.toArray).utf8DecodeChar? 0

/-- The characters from behind the bytes that are still of the last one; `none` for a byte that is
none. -/
def runesFrom : ℕ → Bytes → List (Option Char)
  | _, [] => []
  | skip + 1, _ :: bytes => runesFrom skip bytes
  | 0, b :: bytes =>
    match frontChar (b :: bytes) with
    | some c => some c :: runesFrom (c.utf8Size - 1) bytes
    | none => none :: runesFrom 0 bytes

/-- The characters of a Go string, and its bytes that are none. -/
def runes (bytes : Bytes) : List (Option Char) := runesFrom 0 bytes

/-- What is shown of a Go string where each byte that is no character is U+FFFD. -/
def shown (bytes : Bytes) : String := String.ofList ((runes bytes).map (·.getD '\ufffd'))

theorem frontChar_append (c : Char) (bytes : Bytes) :
    frontChar (String.utf8EncodeChar c ++ bytes) = some c := by
  have hbytes : ByteArray.mk (String.utf8EncodeChar c ++ bytes).toArray =
      [c].utf8Encode ++ bytes.toByteArray := by
    apply ByteArray.ext
    rw [List.utf8Encode_singleton]
    simp
  unfold frontChar
  rw [hbytes]
  exact List.utf8DecodeChar?_utf8Encode_singleton_append

theorem runesFrom_append {skip : ℕ} {u : Bytes} (h : u.length = skip) (bytes : Bytes) :
    runesFrom skip (u ++ bytes) = runesFrom 0 bytes := by
  induction u generalizing skip with
  | nil =>
    obtain rfl := h
    rfl
  | cons b u ih =>
    obtain rfl := h
    exact ih rfl

theorem runes_encode (l : List Char) :
    runes (l.flatMap String.utf8EncodeChar) = l.map some := by
  induction l with
  | nil => rfl
  | cons c l ih =>
    rw [List.flatMap_cons]
    have hfront := frontChar_append c (l.flatMap String.utf8EncodeChar)
    have hlength : (String.utf8EncodeChar c).length = c.utf8Size := String.length_utf8EncodeChar c
    obtain ⟨b, u, hu⟩ := List.exists_cons_of_length_pos (hlength ▸ c.utf8Size_pos)
    rw [hu] at hfront hlength ⊢
    have hskip : u.length = c.utf8Size - 1 := by
      rw [List.length_cons] at hlength
      omega
    unfold runes at ih ⊢
    rw [List.cons_append] at hfront ⊢
    rw [runesFrom, hfront]
    show some c :: runesFrom (c.utf8Size - 1) (u ++ l.flatMap String.utf8EncodeChar) = _
    rw [runesFrom_append hskip, ih, List.map_cons]

/-- **A text is read as it is.** -/
theorem runes_utf8 (s : String) : runes (utf8 s) = s.toList.map some := by
  rw [utf8_eq_flatMap, runes_encode]

theorem shown_utf8 (s : String) : shown (utf8 s) = s := by
  unfold shown
  rw [runes_utf8, List.map_map]
  have hid : s.toList.map ((fun rune : Option Char => rune.getD '\ufffd') ∘ some) = s.toList :=
    List.map_id s.toList
  rw [hid, String.ofList_toList]

/-- A byte that is no character, in the middle of a text. -/
example : runes [97, 255, 98] = [some 'a', none, some 'b'] := by decide

end UnisetPanel
