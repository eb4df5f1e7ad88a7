import Mathlib.Tactic.SplitIfs

/-! # Names and their bytes

Names are put in order by their characters. Their encodings in UTF-8 come in the same order byte by
byte: of two characters the smaller one has the smaller code, and no code begins another one.
-/
namespace NodeRank.Text

/-- The bytes of a text in UTF-8. -/
def bytes (s : String) : List UInt8 := s.toByteArray.data.toList

theorem bytes_eq_flatMap (s : String) : bytes s = s.toList.flatMap String.utf8EncodeChar := by
  unfold bytes
  rw [← String.utf8Encode_toList]
  simp [List.utf8Encode]

theorem codePoint_le (c : Char) : c.val.toNat ≤ 0x10ffff := by
  have h := c.valid
  simp only [UInt32.isValidChar, Nat.isValidChar] at h
  omega

/-- The code of a smaller character is smaller, whatever follows the two. -/
theorem utf8EncodeChar_append_lt {c d : Char} (h : c < d) (xs ys : List UInt8) :
    String.utf8EncodeChar c ++ xs < String.utf8EncodeChar d ++ ys := by
  have hlt : c.val.toNat < d.val.toNat := h
  have hd := codePoint_le d
  unfold String.utf8EncodeChar
  dsimp only
  generalize c.val.toNat = m at *
  generalize d.val.toNat = n at *
  -- A case for every two lengths of codes; only for equal ones a byte after the first decides.
  split_ifs <;>
    simp only [List.cons_append, List.nil_append, List.cons_lt_cons_iff, UInt8.lt_iff_toNat_lt,
      ← UInt8.toNat_inj, UInt8.toNat_ofNat'] <;>
    simp (disch := omega) only [Nat.mod_eq_of_lt] <;>
    omega

theorem flatMap_utf8EncodeChar_lt {xs ys : List Char} (h : xs < ys) :
    xs.flatMap String.utf8EncodeChar < ys.flatMap String.utf8EncodeChar := by
  induction h with
  | @nil d ys =>
    rw [List.flatMap_nil, List.flatMap_cons]
    cases hd : String.utf8EncodeChar d with
    | nil => exact absurd hd String.utf8EncodeChar_ne_nil
    | cons b bs => exact List.nil_lt_cons _ _
  | rel h => exact utf8EncodeChar_append_lt h _ _
  | cons _ ih =>
    rw [List.flatMap_cons, List.flatMap_cons]
    exact List.append_left_lt ih

theorem bytes_lt_bytes {s t : String} (h : s < t) : bytes s < bytes t := by
  rw [bytes_eq_flatMap, bytes_eq_flatMap]
  exact flatMap_utf8EncodeChar_lt h

/-- Names are ordered as their bytes are. -/
theorem le_iff_bytes_le (s t : String) : s ≤ t ↔ bytes s ≤ bytes t := by
  constructor
  · intro h hbytes
    by_cases heq : s = t
    · subst heq
      exact List.lt_irrefl _ hbytes
    · have hlt : s < t := String.not_le.mp fun hts => heq (String.le_antisymm h hts)
      exact List.lt_asymm hbytes (bytes_lt_bytes hlt)
  · intro h hlt
    exact h (bytes_lt_bytes hlt)

end NodeRank.Text
