import ScriptDeps.Address.Error
import ScriptDeps.Address.Percent
import ScriptDeps.Text.Split

/-!
# Hosts that are numbers

A host may be a number of four bytes, written as up to four numbers with points between them, or a
number of sixteen bytes in brackets, written as up to eight numbers with colons between them. Both
have one form in which they are shown.
-/

namespace ScriptDeps.Address

/-- The value of digits of a radix, if all of them are. -/
def valueOf? (radix : Nat) (digits : List Char) : Option Nat :=
  digits.foldl (fun value c =>
    value.bind fun value => (hexValue? c).bind fun digit =>
      if digit < radix then some (value * radix + digit) else none) (some 0)

/-! ## Four bytes -/

/-- The value of one of the numbers between points: a number in the radix sixteen after `0x`, in the
radix eight after `0`, or in the radix ten. -/
def partValue? : List Char → Option Nat
  | [] => none
  | '0' :: 'x' :: digits => valueOf? 16 digits
  | '0' :: 'X' :: digits => valueOf? 16 digits
  | '0' :: c :: digits => valueOf? 8 (c :: digits)
  | digits => valueOf? 10 digits

/-- The parts of a host between points, without an empty one at the end. -/
def pointParts (host : List Char) : List (List Char) :=
  let parts := Text.splitOn '.' host
  if parts.length ≠ 1 ∧ parts.getLast? = some [] then parts.dropLast else parts

/-- A host is made like a number of four bytes: its last part is a number. -/
def endsInNumber (host : List Char) : Bool :=
  match (pointParts host).getLast? with
  | none => false
  | some part => (!part.isEmpty && part.all fun c => c.isDigit) || (partValue? part).isSome

/-- The number that the parts between points make: all but the last one are bytes, and the last one
fills what is left. -/
def shortNumber? (host : List Char) : Except AddressError Nat :=
  match (pointParts host).mapM partValue? with
  | none => .error .shortNumber
  | some values =>
    let bytes := values.dropLast
    let last := values.getLastD 0
    if 4 < values.length ∨ bytes.any (255 < ·) ∨ Nat.pow 256 (4 - bytes.length) ≤ last then
      .error .shortNumber
    else .ok (bytes.zipIdx.foldl (fun sum (b, i) => sum + b * Nat.pow 256 (3 - i)) last)

/-- A number of four bytes as it is shown. -/
def showShort (n : Nat) : List Char :=
  (".".intercalate ([3, 2, 1, 0].map fun i => toString (n / Nat.pow 256 i % 256))).toList

/-! ## Sixteen bytes -/

/-- The two numbers of two bytes that four bytes with points between them make. -/
def bytePairs? (s : List Char) : Option (List Nat) :=
  match (Text.splitOn '.' s).map fun part =>
      if part.isEmpty ∨ part.any (!·.isDigit) ∨ 1 < part.length ∧ part.head? = some '0' then none
      else (valueOf? 10 part).filter (· ≤ 255) with
  | [some a, some b, some c, some d] => some [a * 256 + b, c * 256 + d]
  | _ => none

/-- Read numbers with colons between them. `taken` are those read so far, last first, and `gap` is
where a double colon stands for zeros. -/
def colonParts? : Nat → (taken : List Nat) → (gap : Option Nat) → List Char →
    Option (List Nat × Option Nat)
  | 0, _, _, _ => none
  | _, taken, gap, [] => some (taken.reverse, gap)
  | fuel + 1, taken, gap, s =>
    if taken.length = 8 then none
    else
      match s with
      | ':' :: rest =>
        if gap.isSome then none
        else colonParts? fuel (0 :: taken) (some (taken.length + 1)) rest
      | _ =>
        let digits := (s.take 4).takeWhile fun c => (hexValue? c).isSome
        let value := (valueOf? 16 digits).getD 0
        match s.drop digits.length with
        | [] => some ((value :: taken).reverse, gap)
        | ':' :: rest => if rest.isEmpty then none else colonParts? fuel (value :: taken) gap rest
        | '.' :: _ =>
          if digits.isEmpty ∨ 6 < taken.length then none
          else (bytePairs? s).map fun pairs => (taken.reverse ++ pairs, gap)
        | _ => none

/-- The eight numbers of a host in brackets. -/
def longNumber? (s : List Char) : Except AddressError (List Nat) :=
  let parts :=
    match s with
    | ':' :: ':' :: rest => colonParts? (rest.length + 1) [0] (some 1) rest
    | ':' :: _ => none
    | s => if s.length < 2 then none else colonParts? (s.length + 1) [] none s
  match parts with
  | none => .error .longNumber
  | some (numbers, some gap) =>
    .ok (numbers.take gap ++ List.replicate (8 - numbers.length) 0 ++ numbers.drop gap)
  | some (numbers, none) => if numbers.length = 8 then .ok numbers else .error .longNumber

/-- The length of the run of zeros at the start. -/
def zeroRun (numbers : List Nat) : Nat := (numbers.takeWhile (· == 0)).length

/-- Where the longest run of zeros begins, the first of those as long, and its length. -/
def longestRun (numbers : List Nat) : Nat × Nat :=
  (List.range numbers.length).foldl (fun (start, length) i =>
    let run := zeroRun (numbers.drop i)
    if length < run then (i, run) else (start, length)) (0, 0)

/-- A number in the radix sixteen, in small letters. -/
def showHex (n : Nat) : String := String.ofList (Nat.toDigits 16 n)

/-- Eight numbers as they are shown: two colons stand for the longest run of zeros, if there are at
least two. -/
def showLong (numbers : List Nat) : List Char :=
  let (start, length) := longestRun numbers
  let write (numbers : List Nat) := ":".intercalate (numbers.map showHex)
  let text :=
    if length < 2 then write numbers
    else write (numbers.take start) ++ "::" ++ write (numbers.drop (start + length))
  '[' :: text.toList ++ [']']

end ScriptDeps.Address
