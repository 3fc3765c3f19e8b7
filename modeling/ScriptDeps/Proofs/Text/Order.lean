import Mathlib.Data.Char
import Mathlib.Data.List.Lex
import Mathlib.Data.String.Basic
import ScriptDeps.NameSet
import ScriptDeps.Text.Utf8

/-!
# The order of texts and of their bytes

Names are kept in the order of their characters. The bytes of two names stand in the same order,
since the first byte in which two characters differ tells which of them is greater. Main statement:
`lt_iff_encode_lt`.
-/

namespace ScriptDeps.Text

/-- The bytes of a greater character are greater, whatever stands behind them. -/
private theorem utf8EncodeChar_append_lt {c d : Char} (h : c < d) (s t : List UInt8) :
    String.utf8EncodeChar c ++ s < String.utf8EncodeChar d ++ t := by
  have hlt : c.val.toNat < d.val.toNat := h
  have hd : d.val.toNat < 0x110000 := by
    rcases d.valid with h | h
    · exact lt_trans h (by decide)
    · exact h.2
  simp only [String.utf8EncodeChar]
  split_ifs <;>
    simp only [List.cons_append, List.nil_append, List.cons_lt_cons_iff, UInt8.lt_iff_toNat_lt,
      ← UInt8.toNat_inj, UInt8.toNat_ofNat'] <;>
    simp (disch := omega) only [Nat.mod_eq_of_lt] <;>
    omega

/-- A character has at least one byte. -/
private theorem utf8EncodeChar_ne_nil (c : Char) : String.utf8EncodeChar c ≠ [] := by
  simp only [String.utf8EncodeChar]
  split_ifs <;> simp

/-- The bytes of a greater text are greater. -/
private theorem encode_lt_encode {s t : List Char} (h : s < t) : encode s < encode t := by
  induction h with
  | nil =>
    next d t =>
    obtain ⟨b, bytes, hb⟩ := List.exists_cons_of_ne_nil (utf8EncodeChar_ne_nil d)
    rw [encode, encode, List.flatMap_nil, List.flatMap_cons, hb]
    exact .nil
  | rel h => exact utf8EncodeChar_append_lt h _ _
  | cons _ ih => exact List.append_left_lt ih

/-- Names are in the order of their bytes. -/
theorem lt_iff_encode_lt {a b : String} : a < b ↔ encode a.toList < encode b.toList := by
  rw [String.lt_iff_toList_lt]
  refine ⟨encode_lt_encode, fun h => ?_⟩
  rcases lt_trichotomy a.toList b.toList with hlt | heq | hgt
  · exact hlt
  · rw [heq] at h
    exact absurd h (List.lt_irrefl _)
  · exact absurd h (List.lt_asymm (encode_lt_encode hgt))

end ScriptDeps.Text
