import Mathlib.Data.Char
import ScriptDeps.Text.Utf8

/-!
# Bytes that are read back as the text they were made of

The first byte of a character tells how many bytes follow it, and the bytes that follow add six bits
each. Main statement: `decode_encode`.
-/

namespace ScriptDeps.Text

/-! ## Classes of bytes, by their numbers -/

private theorem sizeOf?_ofNat {n : Nat} (h : n < 256) :
    sizeOf? (UInt8.ofNat n) =
      if n < 0x80 then some 1
      else if 0xC2 ≤ n ∧ n ≤ 0xDF then some 2
      else if 0xE0 ≤ n ∧ n ≤ 0xEF then some 3
      else if 0xF0 ≤ n ∧ n ≤ 0xF4 then some 4
      else none := by
  simp [sizeOf?, UInt8.lt_iff_toNat_lt, UInt8.le_iff_toNat_le, Nat.mod_eq_of_lt h]

private theorem isTail_ofNat {n : Nat} (h : n < 256) :
    isTail (UInt8.ofNat n) = (decide (0x80 ≤ n) && decide (n ≤ 0xBF)) := by
  simp [isTail, UInt8.le_iff_toNat_le, Nat.mod_eq_of_lt h]

private theorem isSecond_ofNat {a n : Nat} (ha : a < 256) (h : n < 256) :
    isSecond (UInt8.ofNat a) (UInt8.ofNat n) =
      if a = 0xE0 then decide (0xA0 ≤ n) && decide (n ≤ 0xBF)
      else if a = 0xED then decide (0x80 ≤ n) && decide (n ≤ 0x9F)
      else if a = 0xF0 then decide (0x90 ≤ n) && decide (n ≤ 0xBF)
      else if a = 0xF4 then decide (0x80 ≤ n) && decide (n ≤ 0x8F)
      else decide (0x80 ≤ n) && decide (n ≤ 0xBF) := by
  simp [isSecond, isTail_ofNat h, ← UInt8.toNat_inj, UInt8.le_iff_toNat_le, Nat.mod_eq_of_lt h,
    Nat.mod_eq_of_lt ha]

/-! ## One character -/

/-- The byte that carries six bits. -/
private def tailByte (n : Nat) : UInt8 := UInt8.ofNat (n % 0x40 + 0x80)

private theorem tailBits_tailByte (code n : Nat) :
    tailBits code (tailByte n) = 64 * code + n % 0x40 := by
  have hbyte : (tailByte n).toNat = n % 0x40 + 0x80 := by
    rw [tailByte, UInt8.toNat_ofNat']
    omega
  unfold tailBits
  omega

private theorem utf8Tail_tailByte (code missing size n : Nat) (rest : List UInt8) :
    utf8Tail code (missing + 1) size (tailByte n :: rest) =
      utf8Tail (64 * code + n % 0x40) missing (size + 1) rest := by
  have htail : isTail (tailByte n) = true := by
    rw [tailByte, isTail_ofNat (by omega)]
    simp only [Bool.and_eq_true, decide_eq_true_eq]
    omega
  rw [utf8Tail, if_pos htail, tailBits_tailByte]

/-- A first byte gives its low bits, the second one six more. -/
private theorem utf8Step_lead {a size n : Nat} (rest : List UInt8) (ha : a < 256)
    (hsize : sizeOf? (UInt8.ofNat a) = some size) (hlong : size ≠ 1)
    (hsecond : isSecond (UInt8.ofNat a) (tailByte n) = true) :
    utf8Step (UInt8.ofNat a) (tailByte n :: rest) =
      utf8Tail (64 * (a % Nat.pow 2 (7 - size)) + n % 0x40) (size - 2) 2 rest := by
  rw [utf8Step, hsize]
  split
  · contradiction
  · next h => exact absurd (Option.some.inj h) hlong
  · next size' _ h =>
    obtain rfl := Option.some.inj h
    simp only [hsecond, if_true, tailBits_tailByte]
    rw [UInt8.toNat_ofNat', Nat.mod_eq_of_lt ha]

/-- The bytes of a character are read as this character, whatever stands behind them. -/
theorem utf8Step_encode (c : Char) (rest : List UInt8) :
    ∃ a bytes, String.utf8EncodeChar c = a :: bytes ∧
      utf8Step a (bytes ++ rest) = .char c (bytes.length + 1) := by
  have hvalid : c.val.toNat < 0xD800 ∨ 0xDFFF < c.val.toNat ∧ c.val.toNat < 0x110000 := c.valid
  have hc : Char.ofNat c.val.toNat = c := Char.ofNat_toNat c
  generalize hv : c.val.toNat = v at hvalid hc
  by_cases h1 : v ≤ 0x7F
  · refine ⟨UInt8.ofNat v, [], by simp [String.utf8EncodeChar, hv, h1], ?_⟩
    have hsize : sizeOf? (UInt8.ofNat v) = some 1 := by
      rw [sizeOf?_ofNat (by omega), if_pos (by omega)]
    simp only [utf8Step, hsize, List.length_nil]
    rw [UInt8.toNat_ofNat', Nat.mod_eq_of_lt (by omega), hc]
  by_cases h2 : v ≤ 0x7FF
  · refine ⟨UInt8.ofNat (v / 64 % 0x20 + 0xC0), [tailByte v],
      by simp [String.utf8EncodeChar, hv, h1, h2, tailByte], ?_⟩
    have hsize : sizeOf? (UInt8.ofNat (v / 64 % 0x20 + 0xC0)) = some 2 := by
      rw [sizeOf?_ofNat (by omega), if_neg (by omega), if_pos (by omega)]
    have hsecond : isSecond (UInt8.ofNat (v / 64 % 0x20 + 0xC0)) (tailByte v) = true := by
      rw [tailByte, isSecond_ofNat (by omega) (by omega)]
      repeat rw [if_neg (by omega)]
      simp only [Bool.and_eq_true, decide_eq_true_eq]
      omega
    rw [List.cons_append, List.nil_append, utf8Step_lead rest (by omega) hsize (by omega) hsecond]
    have hcode : 64 * ((v / 64 % 0x20 + 0xC0) % Nat.pow 2 (7 - 2)) + v % 0x40 = v := by
      simp only [Nat.pow_eq]
      omega
    rw [hcode, utf8Tail, hc]
    rfl
  by_cases h3 : v ≤ 0xFFFF
  · refine ⟨UInt8.ofNat (v / 4096 % 0x10 + 0xE0), [tailByte (v / 64), tailByte v],
      by simp [String.utf8EncodeChar, hv, h1, h2, h3, tailByte], ?_⟩
    have hsize : sizeOf? (UInt8.ofNat (v / 4096 % 0x10 + 0xE0)) = some 3 := by
      rw [sizeOf?_ofNat (by omega), if_neg (by omega), if_neg (by omega), if_pos (by omega)]
    have hsecond :
        isSecond (UInt8.ofNat (v / 4096 % 0x10 + 0xE0)) (tailByte (v / 64)) = true := by
      rw [tailByte, isSecond_ofNat (by omega) (by omega)]
      split_ifs <;> simp only [Bool.and_eq_true, decide_eq_true_eq] <;> omega
    rw [List.cons_append, utf8Step_lead _ (by omega) hsize (by omega) hsecond, List.cons_append,
      utf8Tail_tailByte]
    have hcode : 64 * (64 * ((v / 4096 % 0x10 + 0xE0) % Nat.pow 2 (7 - 3)) + v / 64 % 0x40) +
        v % 0x40 = v := by
      simp only [Nat.pow_eq]
      omega
    rw [hcode, utf8Tail, hc]
    rfl
  · refine ⟨UInt8.ofNat (v / 262144 % 0x08 + 0xF0),
      [tailByte (v / 4096), tailByte (v / 64), tailByte v],
      by simp [String.utf8EncodeChar, hv, h1, h2, h3, tailByte], ?_⟩
    have hsize : sizeOf? (UInt8.ofNat (v / 262144 % 0x08 + 0xF0)) = some 4 := by
      rw [sizeOf?_ofNat (by omega), if_neg (by omega), if_neg (by omega), if_neg (by omega),
        if_pos (by omega)]
    have hsecond :
        isSecond (UInt8.ofNat (v / 262144 % 0x08 + 0xF0)) (tailByte (v / 4096)) = true := by
      rw [tailByte, isSecond_ofNat (by omega) (by omega)]
      split_ifs <;> simp only [Bool.and_eq_true, decide_eq_true_eq] <;> omega
    rw [List.cons_append, utf8Step_lead _ (by omega) hsize (by omega) hsecond, List.cons_append,
      utf8Tail_tailByte, List.cons_append, utf8Tail_tailByte]
    have hcode : 64 * (64 * (64 * ((v / 262144 % 0x08 + 0xF0) % Nat.pow 2 (7 - 4)) +
        v / 4096 % 0x40) + v / 64 % 0x40) + v % 0x40 = v := by
      simp only [Nat.pow_eq]
      omega
    rw [hcode, utf8Tail, hc]
    rfl

/-! ## Texts -/

/-- Bytes that belong to a character that has been read are passed over. -/
private theorem decodeFrom_skip (index : Nat) (bytes rest : List UInt8) :
    decodeFrom index bytes.length (bytes ++ rest) = decodeFrom (index + bytes.length) 0 rest := by
  induction bytes generalizing index with
  | nil => rfl
  | cons b bytes ih =>
    rw [List.length_cons, List.cons_append, decodeFrom, ih]
    congr 1
    omega

private theorem decodeFrom_encode (index : Nat) (s : List Char) :
    decodeFrom index 0 (encode s) = .ok s := by
  induction s generalizing index with
  | nil => rfl
  | cons c s ih =>
    obtain ⟨a, bytes, hbytes, hstep⟩ := utf8Step_encode c (encode s)
    have hencode : encode (c :: s) = a :: (bytes ++ encode s) := by
      rw [encode, List.flatMap_cons, hbytes]
      rfl
    rw [hencode, decodeFrom, hstep]
    simp only [Nat.add_sub_cancel, decodeFrom_skip, ih]

/-- The bytes of a text are read as this text. -/
theorem decode_encode (s : List Char) : decode (encode s) = .ok s := decodeFrom_encode 0 s

end ScriptDeps.Text
