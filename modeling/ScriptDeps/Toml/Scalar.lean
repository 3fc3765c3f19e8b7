import ScriptDeps.Decimal
import ScriptDeps.Toml.Text
import ScriptDeps.Toml.Value

/-!
# Numbers, dates and words

A value that begins with a digit or a sign is a date or time if the first digits look like one, else
a fraction if a point or an exponent follows its integer part, else a whole number of 64 bits.
-/

namespace ScriptDeps.Toml

/-- Digits of a class with single underscores between them, the first in front of a text. -/
def digitRun (digit : Char → Bool) : List Char → List Char × Rest
  | [] => ([], [])
  | [c] => if digit c then ([c], []) else ([], [c])
  | c :: d :: s =>
    if digit c ∨ (c = '_' ∧ digit d) then
      let (taken, rest) := digitRun digit (d :: s)
      (c :: taken, rest)
    else ([], c :: d :: s)

/-- A run of digits that begins with a digit; an underscore must not stand after it. -/
def digits? (digit : Char → Bool) (s : List Char) : Option (List Char × Rest) :=
  if s.head?.any digit then
    let (taken, rest) := digitRun digit s
    if rest.head? = some '_' then none else some (taken, rest)
  else none

/-- A sign in front of a number, if there is one. -/
def sign : List Char → List Char × Rest
  | '+' :: s => (['+'], s)
  | '-' :: s => (['-'], s)
  | s => ([], s)

/-- The number that digits of a radix write, underscores left out. -/
def numberOf (radix : Nat) (digits : List Char) : Nat :=
  digits.foldl (fun n c => if c = '_' then n else radix * n + (hexDigit? c).getD 0) 0

/-- A number of 64 bits. -/
def inRange? (n : Int) : Option Int :=
  if -Int.pow 2 63 ≤ n ∧ n < Int.pow 2 63 then some n else none

/-- The integer part of a decimal number, sign included: no zero stands before other digits. -/
def integerPart? (s : List Char) : Option (List Char × Rest) :=
  let (mark, s) := sign s
  match s with
  | '0' :: rest => some (mark ++ ['0'], rest)
  | s => (digits? Char.isDigit s).map fun (taken, rest) => (mark ++ taken, rest)

/-- The fractional part of a number, behind its point. -/
def fraction? : List Char → Option (List Char × Rest)
  | '.' :: s => (digits? Char.isDigit s).map fun (taken, rest) => ('.' :: taken, rest)
  | _ => none

/-- The exponent of a number, behind its letter. -/
def exponent? : List Char → Option (List Char × Rest)
  | e :: s =>
    if e = 'e' ∨ e = 'E' then
      let (mark, s) := sign s
      (digits? Char.isDigit s).map fun (taken, rest) => (e :: mark ++ taken, rest)
    else none
  | [] => none

/-- The text of a fraction stands for a finite number, or for one below all finite ones. -/
def isBounded (whole fraction exponent : List Char) : Bool :=
  let decimals := (fraction.filter Char.isDigit).length
  let (mark, digits) := sign (exponent.drop 1)
  let power : Int := if mark = ['-'] then -(numberOf 10 digits : Int) else numberOf 10 digits
  let mantissa := numberOf 10 ((whole ++ fraction).filter Char.isDigit)
  whole.head? = some '-' || !Decimal.overflows mantissa (power - decimals)

/-- A fraction, behind its integer part: with a point, an exponent, or both. -/
def float? (whole s : List Char) : Option (Value × Rest) := do
  let (fraction, s) ← if s.head? = some '.' then fraction? s else some ([], s)
  let (exponent, s) ←
    if s.head? = some 'e' ∨ s.head? = some 'E' then exponent? s else some ([], s)
  if isBounded whole fraction exponent then
    some (.float (String.ofList (whole ++ fraction ++ exponent)), s)
  else none

/-- A whole number in a radix other than ten. -/
def radixNumber? (radix : Nat) (digit : Char → Bool) (s : List Char) : Option (Value × Rest) := do
  let (taken, s) ← digits? digit s
  let n ← inRange? (numberOf radix taken)
  some (.integer n, s)

/-- A number. -/
def number? (s : List Char) : Option (Value × Rest) :=
  match s with
  | '0' :: 'x' :: s => radixNumber? 16 (fun c => (hexDigit? c).isSome) s
  | '0' :: 'o' :: s => radixNumber? 8 (fun c => '0' ≤ c && c ≤ '7') s
  | '0' :: 'b' :: s => radixNumber? 2 (fun c => c == '0' || c == '1') s
  | s => do
    let (whole, s) ← integerPart? s
    if s.head? = some '.' ∨ s.head? = some 'e' ∨ s.head? = some 'E' then float? whole s
    else
      let (mark, digits) := sign whole
      let size : Int := numberOf 10 digits
      let n ← inRange? (if mark = ['-'] then -size else size)
      some (.integer n, s)

/-- The number of two digits at the start of a text. -/
def twoDigits? : List Char → Option (Nat × Rest)
  | a :: b :: s => if a.isDigit ∧ b.isDigit then some (numberOf 10 [a, b], s) else none
  | _ => none

/-- A number of two digits up to a bound. -/
def twoDigitsUpTo? (bound : Nat) (s : List Char) : Option (Nat × Rest) :=
  (twoDigits? s).filter fun (n, _) => n ≤ bound

/-- A given character. -/
def mark? (c : Char) : List Char → Option Rest
  | d :: s => if c = d then some s else none
  | [] => none

/-- Days of a month. -/
def daysIn (year month : Nat) : Nat :=
  if month = 2 then
    if year % 4 = 0 ∧ (year % 100 ≠ 0 ∨ year % 400 = 0) then 29 else 28
  else if [4, 6, 9, 11].contains month then 30
  else 31

/-- A date. -/
def date? (s : List Char) : Option Rest := do
  let year := s.take 4
  if year.length = 4 ∧ year.all Char.isDigit then
    let s ← mark? '-' (s.drop 4)
    let (month, s) ← twoDigitsUpTo? 12 s
    let s ← mark? '-' s
    let (day, s) ← twoDigitsUpTo? (daysIn (numberOf 10 year) month) s
    if month = 0 ∨ day = 0 then none else some s
  else none

/-- A time of day. -/
def time? (s : List Char) : Option Rest := do
  let (_, s) ← twoDigitsUpTo? 23 s
  let s ← mark? ':' s
  let (_, s) ← twoDigitsUpTo? 59 s
  let s ← mark? ':' s
  let (_, s) ← twoDigitsUpTo? 60 s
  match s with
  | '.' :: c :: s' => some (if c.isDigit then s'.dropWhile Char.isDigit else s)
  | _ => some s

/-- The distance of a local time from universal time, if given. -/
def offset? : List Char → Option Rest
  | 'Z' :: s => some s
  | 'z' :: s => some s
  | c :: s =>
    if c = '+' ∨ c = '-' then do
      let (_, s) ← twoDigitsUpTo? 23 s
      let s ← mark? ':' s
      let (_, s) ← twoDigitsUpTo? 59 s
      some s
    else some (c :: s)
  | [] => some []

/-- A text that begins like a date. -/
def looksLikeDate (s : List Char) : Bool :=
  (s.take 4).length == 4 && (s.take 4).all Char.isDigit && (s.drop 4).head? == some '-'

/-- A text that begins like a time of day. -/
def looksLikeTime (s : List Char) : Bool :=
  (s.take 2).length == 2 && (s.take 2).all Char.isDigit && (s.drop 2).head? == some ':'

/-- A time after a date, with what may stand between them. -/
def timeAfterDate? : List Char → Option Rest
  | c :: s =>
    if (c = 'T' ∨ c = 't' ∨ c = ' ') ∧ looksLikeTime s then (time? s).bind offset?
    else some (c :: s)
  | [] => some []

/-- A date, a time, or both. -/
def datetime? (s : List Char) : Option (Value × Rest) := do
  let rest ← if looksLikeDate s then (date? s).bind timeAfterDate? else time? s
  some (.datetime (String.ofList (s.take (s.length - rest.length))), rest)

/-- A value that is neither a text nor has parts. -/
def scalar? (s : List Char) : Option (Value × Rest) :=
  let word (text : String) := s.take text.length = text.toList
  if word "true" then some (.boolean true, s.drop 4)
  else if word "false" then some (.boolean false, s.drop 5)
  else
    let (mark, body) := sign s
    if body.take 3 = "inf".toList ∨ body.take 3 = "nan".toList then
      some (.float (String.ofList (mark ++ body.take 3)), body.drop 3)
    else if looksLikeDate s || looksLikeTime s then datetime? s
    else number? s

end ScriptDeps.Toml
