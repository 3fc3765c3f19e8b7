import ScriptDeps.Address.Error
import ScriptDeps.Address.Percent
import ScriptDeps.Text.Split

/-!
# Domain names

The letters of a domain name are made small. A part between points that has other characters than
the first 128 is written in an encoding of its own: those of the first 128, then where the others go
in, as numbers of a radix that changes.
-/

namespace ScriptDeps.Address

/-! ## The encoding of names -/

/-- A digit of the radix thirty-six. -/
def nameDigit (n : Nat) : Char :=
  if n < 26 then Char.ofNat ('a'.toNat + n) else Char.ofNat ('0'.toNat + n - 26)

/-- The value from which a digit is not the last one of a number. -/
def threshold (place bias : Nat) : Nat := min 26 (max 1 (place - bias))

/-- A number as digits, the lowest first; each has a threshold of its own. -/
def writeNumber (bias : Nat) : (fuel : Nat) → (place : Nat) → Nat → List Char
  | 0, _, n => [nameDigit n]
  | fuel + 1, place, n =>
    let t := threshold place bias
    if n < t then [nameDigit n]
    else
      nameDigit (t + (n - t) % (36 - t)) ::
        writeNumber bias fuel (place + 36) ((n - t) / (36 - t))

/-- Make a number small enough to tell a bias, and count the steps. -/
def shrink : (fuel : Nat) → (steps : Nat) → Nat → Nat × Nat
  | 0, steps, n => (steps, n)
  | fuel + 1, steps, n => if 455 < n then shrink fuel (steps + 1) (n / 35) else (steps, n)

/-- The bias after a number has been written, when some characters are done. -/
def adapt (n done : Nat) (first : Bool) : Nat :=
  let n := if first then n / 700 else n / 2
  let n := n + n / done
  let (steps, n) := shrink n 0 n
  36 * steps + 36 * n / (n + 38)

/-- How far the encoding of a name is. -/
structure Encoding where
  /-- What has been written. -/
  output : List Char
  /-- The number to be written next. -/
  distance : Nat
  /-- The bias. -/
  bias : Nat
  /-- The number of characters that are done. -/
  done : Nat

/-- Look at one character of a name when the characters of a value are put in. -/
def Encoding.pass (basic value : Nat) (e : Encoding) (c : Char) : Encoding :=
  if c.toNat < value then { e with distance := e.distance + 1 }
  else if c.toNat = value then
    ⟨e.output ++ writeNumber e.bias e.distance 36 e.distance, 0,
      adapt e.distance (e.done + 1) (e.done = basic), e.done + 1⟩
  else e

/-- Put the characters of some values into a name, the lowest first; all below `low` are in it. -/
def Encoding.run (basic : Nat) (name : List Char) : (low : Nat) → List Nat → Encoding → Encoding
  | _, [], e => e
  | low, value :: values, e =>
    let e := { e with distance := e.distance + (value - low) * (e.done + 1) }
    let e := name.foldl (Encoding.pass basic value) e
    Encoding.run basic name (value + 1) values { e with distance := e.distance + 1 }

/-- A character is among the first 128. -/
def isBasic (c : Char) : Bool := c.toNat < 128

/-- The encoding of a name that has characters beyond the first 128. -/
def encodeName (name : List Char) : List Char :=
  let basic := name.filter isBasic
  let values := ((name.filter (!isBasic ·)).map Char.toNat).eraseDups.mergeSort (· ≤ ·)
  let e := Encoding.run basic.length name 128 values ⟨[], 0, 72, basic.length⟩
  "xn--".toList ++ basic ++ (if basic.isEmpty then [] else ['-']) ++ e.output

/-! ## Domain names -/

/-- Ranges of capital letters with the distance to their small letters. -/
def capitalRanges : List (Nat × Nat × Nat) :=
  [(0x41, 0x5A, 32), (0xC0, 0xD6, 32), (0xD8, 0xDE, 32), (0x386, 0x386, 38), (0x388, 0x38A, 37),
    (0x38C, 0x38C, 64), (0x38E, 0x38F, 63), (0x391, 0x3A1, 32), (0x3A3, 0x3AB, 32),
    (0x400, 0x40F, 80), (0x410, 0x42F, 32), (0x531, 0x556, 48)]

/-- Ranges in which a capital letter stands before its small letter, from the first capital on. -/
def pairedRanges : List (Nat × Nat) :=
  [(0x100, 0x12F), (0x132, 0x137), (0x139, 0x148), (0x14A, 0x177), (0x179, 0x17E), (0x1DE, 0x1EF),
    (0x1F8, 0x21F), (0x222, 0x233), (0x460, 0x481), (0x48A, 0x4BF), (0x4C1, 0x4CE), (0x4D0, 0x52F),
    (0x1E00, 0x1E95), (0x1EA0, 0x1EFF)]

/-- A letter made small. -/
def smallLetter (c : Char) : Char :=
  let n := c.toNat
  match capitalRanges.find? fun (low, high, _) => low ≤ n ∧ n ≤ high with
  | some (_, _, distance) => Char.ofNat (n + distance)
  | none =>
    match pairedRanges.find? fun (low, high) => low ≤ n ∧ n ≤ high with
    | some (low, _) => if (n - low) % 2 = 0 then Char.ofNat (n + 1) else c
    | none => c

/-- Characters that count for nothing in a domain name. -/
def isIgnored (c : Char) : Bool :=
  [0xAD, 0x200B, 0x2060, 0x2064, 0xFEFF].contains c.toNat || (0xFE00 ≤ c.toNat && c.toNat ≤ 0xFE0F)

/-- A character as it stands in a domain name: wide forms as the plain ones, points of other scripts
as points and letters small. -/
def domainChar (c : Char) : Char :=
  let n := c.toNat
  if n = 0x3002 ∨ n = 0xFF61 then '.'
  else if 0xFF01 ≤ n ∧ n ≤ 0xFF5E then smallLetter (Char.ofNat (n - 0xFEE0))
  else smallLetter c

/-- Characters that no domain name has. -/
def outsideDomain (c : Char) : Bool :=
  c.toNat ≤ 0x20 || c.toNat = 0x7F || "%#/:<>?@[\\]^|".toList.contains c

/-- The domain name that a host in an address means. -/
def domainOf (host : List Char) : Except AddressError (List Char) :=
  match Text.decode (percentDecode host) with
  | .error _ => .error .domain
  | .ok name =>
    let name := (name.filter (!isIgnored ·)).map domainChar
    if name.any outsideDomain then .error .domain
    else
      let parts := (Text.splitOn '.' name).map fun part =>
        if part.all isBasic then part else encodeName part
      .ok (['.'].intercalate parts)

end ScriptDeps.Address
