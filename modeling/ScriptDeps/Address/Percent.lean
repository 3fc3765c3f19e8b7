import ScriptDeps.Text.Utf8

/-!
# Percent signs in addresses

A character that cannot stand in some part of an address is written as its bytes, each as a percent
sign and two digits. Which characters these are depends on the part.
-/

namespace ScriptDeps.Address

open Text

/-- A digit of the radix sixteen, in capitals. -/
def hexDigit (n : Nat) : Char := "0123456789ABCDEF".toList.getD n '0'

/-- The value of a digit of the radix sixteen. -/
def hexValue? (c : Char) : Option Nat :=
  if '0' ≤ c ∧ c ≤ '9' then some (c.toNat - '0'.toNat)
  else if 'a' ≤ c ∧ c ≤ 'f' then some (c.toNat - 'a'.toNat + 10)
  else if 'A' ≤ c ∧ c ≤ 'F' then some (c.toNat - 'A'.toNat + 10)
  else none

/-- A byte as a percent sign and two digits. -/
def percentByte (b : UInt8) : List Char := ['%', hexDigit (b.toNat / 16), hexDigit (b.toNat % 16)]

/-- A text in which some characters are written with percent signs. -/
def percentEncode (cannotStand : Char → Bool) (s : List Char) : List Char :=
  s.flatMap fun c => if cannotStand c then (encode [c]).flatMap percentByte else [c]

/-- The bytes of a text in which bytes may be written with percent signs. -/
def percentDecode : List Char → List UInt8
  | [] => []
  | '%' :: a :: b :: s =>
    match hexValue? a, hexValue? b with
    | some high, some low => UInt8.ofNat (16 * high + low) :: percentDecode s
    | _, _ => encode ['%'] ++ percentDecode (a :: b :: s)
  | c :: s => encode [c] ++ percentDecode s

/-- Characters that stand nowhere in an address: controls and all beyond the first 128. -/
def isControl (c : Char) : Bool := c.toNat < 0x20 || 0x7F ≤ c.toNat

/-- Characters that cannot stand in a fragment. -/
def outsideFragment (c : Char) : Bool := isControl c || " \"<>`".toList.contains c

/-- Characters that cannot stand in a path. -/
def outsidePath (c : Char) : Bool := outsideFragment c || "#?\x7b\x7d".toList.contains c

/-- Characters that cannot stand in the name or password of a user. -/
def outsideUser (c : Char) : Bool := outsidePath c || "/:;=@[\\]^|".toList.contains c

/-- Characters that cannot stand in a query. Under the best known schemes an apostrophe cannot. -/
def outsideQuery (special : Bool) (c : Char) : Bool :=
  isControl c || " \"#<>".toList.contains c || (special && c == '\'')

end ScriptDeps.Address
