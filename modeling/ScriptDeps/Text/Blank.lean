/-!
# Blank characters and trimming

A character is blank when it has the Unicode property `White_Space`. Trimming removes the longest
blank run at an end of a text.
-/

namespace ScriptDeps.Text

/-- The characters with the Unicode property `White_Space`. -/
def isBlank (c : Char) : Bool :=
  let n := c.toNat
  (9 ≤ n && n ≤ 13) || n == 0x20 || n == 0x85 || n == 0xA0 || n == 0x1680 ||
    (0x2000 ≤ n && n ≤ 0x200A) || n == 0x2028 || n == 0x2029 || n == 0x202F || n == 0x205F ||
    n == 0x3000

/-- Remove the blank run at the start. -/
def trimStart (s : List Char) : List Char := s.dropWhile isBlank

/-- Remove the blank run at the end. -/
def trimEnd (s : List Char) : List Char := (s.reverse.dropWhile isBlank).reverse

/-- Remove the blank runs at both ends. -/
def trim (s : List Char) : List Char := trimEnd (trimStart s)

/-- Remove a given beginning, or answer nothing when the text starts otherwise. -/
def dropLead? : List Char → List Char → Option (List Char)
  | [], s => some s
  | _ :: _, [] => none
  | a :: lead, c :: s => if a = c then dropLead? lead s else none

/-- A text starts with `lead` exactly when something is left after it. -/
theorem dropLead?_eq_some {lead s rest : List Char} :
    dropLead? lead s = some rest ↔ s = lead ++ rest := by
  induction lead generalizing s with
  | nil => simp [dropLead?, eq_comm]
  | cons a lead ih =>
    cases s with
    | nil => simp [dropLead?]
    | cons c s =>
      by_cases h : a = c
      · simp [dropLead?, h, ih]
      · simp [dropLead?, h, Ne.symm h]

end ScriptDeps.Text
