import Mathlib.Tactic.SplitIfs
import ScriptDeps.Proofs.Text.Utf8

/-!
# Bytes that are a text

The bytes that are read as a text are those that are written for it, and no others: a character is
read from no bytes but its own. Main statement: `decode_eq_ok_iff`.
-/

namespace ScriptDeps.Text

variable {a b : UInt8} {v size length : Nat} {c : Char} {bytes : List UInt8}

/-! ## Classes of bytes, by their numbers -/

private theorem range_of_isTail (h : isTail b = true) : 0x80 ≤ b.toNat ∧ b.toNat ≤ 0xBF := by
  simpa [isTail, UInt8.le_iff_toNat_le] using h

/-- A second byte goes on with a character; where it decides what the character is, its range is
smaller. -/
private theorem range_of_isSecond (h : isSecond a b = true) :
    (0x80 ≤ b.toNat ∧ b.toNat ≤ 0xBF) ∧ (a.toNat = 0xE0 → 0xA0 ≤ b.toNat) ∧
      (a.toNat = 0xED → b.toNat ≤ 0x9F) ∧ (a.toNat = 0xF0 → 0x90 ≤ b.toNat) ∧
      (a.toNat = 0xF4 → b.toNat ≤ 0x8F) := by
  simp only [isSecond, isTail, ← UInt8.toNat_inj, UInt8.le_iff_toNat_le] at h
  split_ifs at h <;> simp at h <;> simp_all <;> omega

/-- A first byte that something follows has one of three lengths. -/
private theorem range_of_sizeOf? (h : sizeOf? a = some size) :
    size = 1 ∧ a.toNat ≤ 0x7F ∨ size = 2 ∧ 0xC2 ≤ a.toNat ∧ a.toNat ≤ 0xDF ∨
      size = 3 ∧ 0xE0 ≤ a.toNat ∧ a.toNat ≤ 0xEF ∨ size = 4 ∧ 0xF0 ≤ a.toNat ∧ a.toNat ≤ 0xF4 := by
  simp only [sizeOf?, UInt8.lt_iff_toNat_lt, UInt8.le_iff_toNat_le, UInt8.reduceToNat] at h
  split_ifs at h <;> cases h <;> omega

/-! ## One character -/

/-- The bytes of the character of a code. -/
private theorem utf8EncodeChar_ofNat (h : v < 0xD800 ∨ 0xDFFF < v ∧ v < 0x110000) :
    String.utf8EncodeChar (Char.ofNat v) =
      if v ≤ 0x7F then [UInt8.ofNat v]
      else if v ≤ 0x7FF then [UInt8.ofNat (v / 64 % 32 + 192), UInt8.ofNat (v % 64 + 128)]
      else if v ≤ 0xFFFF then
        [UInt8.ofNat (v / 4096 % 16 + 224), UInt8.ofNat (v / 64 % 64 + 128),
          UInt8.ofNat (v % 64 + 128)]
      else
        [UInt8.ofNat (v / 262144 % 8 + 240), UInt8.ofNat (v / 4096 % 64 + 128),
          UInt8.ofNat (v / 64 % 64 + 128), UInt8.ofNat (v % 64 + 128)] := by
  have hv : (Char.ofNat v).val.toNat = v := by
    have hvalid : v.isValidChar := h
    rw [Char.ofNat, dif_pos hvalid]
    rfl
  rw [String.utf8EncodeChar, hv]

private theorem ofNat_eq {n : Nat} (h : n = b.toNat) : UInt8.ofNat n = b := by
  rw [h, UInt8.ofNat_toNat]

/-- Behind a first byte that something follows stands a second one. -/
private theorem of_utf8Step (hsize : sizeOf? a = some length) (hlong : length ≠ 1)
    (h : utf8Step a bytes = .char c size) :
    ∃ b rest, bytes = b :: rest ∧ isSecond a b = true ∧
      utf8Tail (64 * (a.toNat % Nat.pow 2 (7 - length)) + (b.toNat - 0x80)) (length - 2) 2 rest =
        .char c size := by
  rw [utf8Step, hsize] at h
  split at h
  next heq => cases heq
  next heq => exact absurd (Option.some.inj heq) hlong
  next length' _ heq =>
    obtain rfl := Option.some.inj heq
    cases bytes with
    | nil => exact Utf8Step.noConfusion h
    | cons b rest =>
      dsimp only at h
      split at h
      next hsecond => exact ⟨b, rest, rfl, hsecond, h⟩
      next => exact Utf8Step.noConfusion h

/-- While bytes are missing, one more follows. -/
private theorem of_utf8Tail {code missing read : Nat}
    (h : utf8Tail code (missing + 1) read bytes = .char c size) :
    ∃ b rest, bytes = b :: rest ∧ isTail b = true ∧
      utf8Tail (64 * code + (b.toNat - 0x80)) missing (read + 1) rest = .char c size := by
  cases bytes with
  | nil => exact Utf8Step.noConfusion h
  | cons b rest =>
    rw [utf8Tail] at h
    split at h
    next htail => exact ⟨b, rest, rfl, htail, h⟩
    next => exact Utf8Step.noConfusion h

/-- A character that is read from bytes has these bytes. -/
theorem utf8Step_eq_char (h : utf8Step a bytes = .char c size) :
    ∃ tail rest, bytes = tail ++ rest ∧ size = tail.length + 1 ∧
      String.utf8EncodeChar c = a :: tail := by
  cases hsize : sizeOf? a with
  | none => simp [utf8Step, hsize] at h
  | some length =>
    rcases range_of_sizeOf? hsize with ⟨rfl, ha⟩ | ⟨rfl, ha⟩ | ⟨rfl, ha⟩ | ⟨rfl, ha⟩
    · simp only [utf8Step, hsize, Utf8Step.char.injEq] at h
      obtain ⟨rfl, rfl⟩ := h
      refine ⟨[], bytes, rfl, rfl, ?_⟩
      rw [utf8EncodeChar_ofNat (by omega), if_pos ha, UInt8.ofNat_toNat]
    · obtain ⟨b, rest, rfl, hsecond, h⟩ := of_utf8Step hsize (by decide) h
      rw [show Nat.pow 2 (7 - 2) = 32 from rfl] at h
      obtain ⟨hb, -⟩ := range_of_isSecond hsecond
      obtain ⟨rfl, rfl⟩ := Utf8Step.char.inj h
      refine ⟨[b], rest, rfl, rfl, ?_⟩
      rw [utf8EncodeChar_ofNat (by omega), if_neg (by omega), if_pos (by omega),
        ofNat_eq (b := a) (by omega), ofNat_eq (b := b) (by omega)]
    · obtain ⟨b, _, rfl, hsecond, h⟩ := of_utf8Step hsize (by decide) h
      rw [show Nat.pow 2 (7 - 3) = 16 from rfl] at h
      obtain ⟨d, rest, rfl, hd, h⟩ := of_utf8Tail h
      obtain ⟨hb, hE0, hED, -⟩ := range_of_isSecond hsecond
      have hd := range_of_isTail hd
      obtain ⟨rfl, rfl⟩ := Utf8Step.char.inj h
      refine ⟨[b, d], rest, rfl, rfl, ?_⟩
      rw [utf8EncodeChar_ofNat (by omega), if_neg (by omega), if_neg (by omega), if_pos (by omega),
        ofNat_eq (b := a) (by omega), ofNat_eq (b := b) (by omega), ofNat_eq (b := d) (by omega)]
    · obtain ⟨b, _, rfl, hsecond, h⟩ := of_utf8Step hsize (by decide) h
      rw [show Nat.pow 2 (7 - 4) = 8 from rfl] at h
      obtain ⟨d, _, rfl, hd, h⟩ := of_utf8Tail h
      obtain ⟨e, rest, rfl, he, h⟩ := of_utf8Tail h
      obtain ⟨hb, -, -, hF0, hF4⟩ := range_of_isSecond hsecond
      have hd := range_of_isTail hd
      have he := range_of_isTail he
      obtain ⟨rfl, rfl⟩ := Utf8Step.char.inj h
      refine ⟨[b, d, e], rest, rfl, rfl, ?_⟩
      rw [utf8EncodeChar_ofNat (by omega), if_neg (by omega), if_neg (by omega), if_neg (by omega),
        ofNat_eq (b := a) (by omega), ofNat_eq (b := b) (by omega), ofNat_eq (b := d) (by omega),
        ofNat_eq (b := e) (by omega)]

/-! ## Texts -/

private theorem encode_of_decodeFrom {index skip : Nat} {s : List Char}
    (h : decodeFrom index skip bytes = .ok s) : bytes.drop skip = encode s := by
  induction bytes generalizing index skip s with
  | nil =>
    rw [decodeFrom] at h
    rw [← Except.ok.inj h, List.drop_nil]
    rfl
  | cons a bytes ih =>
    cases skip with
    | succ skip => exact ih h
    | zero =>
      rw [decodeFrom] at h
      split at h
      next c size hstep =>
        split at h
        next t hrest =>
          obtain ⟨tail, rest, rfl, rfl, hc⟩ := utf8Step_eq_char hstep
          have hrest := ih hrest
          rw [Nat.add_sub_cancel, List.drop_left] at hrest
          rw [← Except.ok.inj h, encode, List.flatMap_cons, hc, hrest]
          rfl
        next => cases h
      next => cases h
      next => cases h

/-- Bytes are read as a text exactly if they are the bytes of this text. -/
theorem decode_eq_ok_iff {s : List Char} : decode bytes = .ok s ↔ bytes = encode s :=
  ⟨encode_of_decodeFrom, fun h => h ▸ decode_encode s⟩

end ScriptDeps.Text
