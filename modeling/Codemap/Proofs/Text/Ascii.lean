/-
# Characters of ASCII

Among the characters of ASCII the capitals, and the letters that they become in lower case, are
those that the core library knows, one for one.

In UTF-8 a character of ASCII is one byte, and no other character begins with that byte.  So the
byte behind a beginning of a text tells whether a character of ASCII follows it
(`getElem?_toUTF8_append_eq_some_iff`), whatever characters that beginning holds.
-/
import Codemap.Text.Case
import Mathlib.Data.List.Basic

namespace Codemap.Text

variable {c : Char}

/-- A character of ASCII. -/
def IsAscii (c : Char) : Prop := c.toNat < 128

instance : DecidablePred IsAscii := fun c => inferInstanceAs (Decidable (c.toNat < 128))

/-! ## 1. Letter case -/

/-- What holds of the first 128 characters holds of those of ASCII. -/
theorem IsAscii.of_forall {P : Char → Prop} (h : ∀ n < 128, P (Char.ofNat n)) (hc : IsAscii c) :
    P c := by
  have hn := h c.toNat hc
  rwa [Char.ofNat_toNat] at hn

theorem IsAscii.isUpper_eq (hc : IsAscii c) : isUpper c = c.isUpper :=
  hc.of_forall (P := fun c => isUpper c = c.isUpper) (by decide +kernel)

theorem IsAscii.lowerChar_eq (hc : IsAscii c) : lowerChar c = [c.toLower] :=
  hc.of_forall (P := fun c => lowerChar c = [c.toLower]) (by decide +kernel)

/-! ## 2. Bytes -/

theorem IsAscii.toNat_toUInt8 (hc : IsAscii c) : c.toUInt8.toNat = c.toNat := by
  have hlt : c.toNat < 128 := hc
  have hmod : c.toUInt8.toNat = c.toNat % 256 := UInt32.toNat_toUInt8 c.val
  omega

/-- No other character begins with the byte of a character of ASCII. -/
theorem IsAscii.exists_utf8EncodeChar_eq_cons (hc : IsAscii c) (d : Char) :
    ∃ b bs, String.utf8EncodeChar d = b :: bs ∧ (b = c.toUInt8 ↔ d = c) := by
  have hlt : c.toNat < 128 := hc
  have hchar : d = c ↔ d.val.toNat = c.toNat := by
    rw [← Char.val_inj, ← UInt32.toNat_inj]
    rfl
  have hbyte (n : Nat) : UInt8.ofNat n = c.toUInt8 ↔ n % 256 = c.toNat := by
    rw [← UInt8.toNat_inj, UInt8.toNat_ofNat', hc.toNat_toUInt8]
  -- the first bytes of longer characters are 192 and above
  rw [String.utf8EncodeChar, hchar]
  split
  · exact ⟨_, _, rfl, by rw [hbyte]; omega⟩
  · split
    · exact ⟨_, _, rfl, by rw [hbyte]; omega⟩
    · split
      all_goals exact ⟨_, _, rfl, by rw [hbyte]; omega⟩

/-- The first byte of a text tells whether its first character is a certain one of ASCII. -/
theorem IsAscii.getElem?_toUTF8_zero_eq_some_iff (hc : IsAscii c) (s : String) :
    s.toUTF8[0]? = some c.toUInt8 ↔ s.toList.head? = some c := by
  rw [String.toUTF8_eq_toByteArray, ← String.ofList_toList (s := s), String.toByteArray_ofList,
    String.toList_ofList]
  cases s.toList with
  | nil => simp
  | cons d r =>
    obtain ⟨b, bs, hb, hbyte⟩ := hc.exists_utf8EncodeChar_eq_cons d
    rw [List.utf8Encode, List.flatMap_cons, hb, List.cons_append]
    have hpos : 0 < (b :: (bs ++ r.flatMap String.utf8EncodeChar)).toByteArray.size := by simp
    rw [getElem?_pos (b :: (bs ++ r.flatMap String.utf8EncodeChar)).toByteArray 0 hpos]
    simpa using hbyte

/-- The byte behind a beginning of a text is the first byte of what follows it. -/
theorem getElem?_toUTF8_append (s t : String) :
    (s ++ t).toUTF8[s.utf8ByteSize]? = t.toUTF8[0]? := by
  simp only [String.toUTF8_eq_toByteArray, String.toByteArray_append]
  by_cases h : 0 < t.toByteArray.size
  · have hlt : s.utf8ByteSize < (s.toByteArray ++ t.toByteArray).size := by simpa using h
    rw [getElem?_pos (s.toByteArray ++ t.toByteArray) _ hlt, getElem?_pos t.toByteArray 0 h,
      ByteArray.getElem_append_right (by simp)]
    simp
  · have hnot : ¬ s.utf8ByteSize < (s.toByteArray ++ t.toByteArray).size := by simpa using h
    rw [getElem?_neg (s.toByteArray ++ t.toByteArray) _ hnot, getElem?_neg t.toByteArray 0 h]

/-- **The byte behind a beginning of a text tells whether a character of ASCII follows.** -/
theorem IsAscii.getElem?_toUTF8_append_eq_some_iff (hc : IsAscii c) (s t : String) :
    (s ++ t).toUTF8[s.utf8ByteSize]? = some c.toUInt8 ↔ t.toList.head? = some c := by
  rw [getElem?_toUTF8_append, hc.getElem?_toUTF8_zero_eq_some_iff]

end Codemap.Text
