/-!
# Timestamps

A point in time as a report writes it: the date and the time of day in UTC, with as many groups of
three digits of a second as are needed.
-/

namespace ScriptDeps

/-- A point in time, counted from the beginning of 1970. -/
structure Instant where
  /-- Whole seconds. -/
  seconds : Nat
  /-- Billionths of a second. -/
  nanoseconds : Nat
  deriving DecidableEq, Repr

namespace Instant

/-- The last digits of a number. -/
def digits : (count : Nat) → Nat → List Char
  | 0, _ => []
  | count + 1, n => digits count (n / 10) ++ [Nat.digitChar (n % 10)]

/-- Year, month and day of a day counted from the beginning of 1970. Years are counted from March,
so that a leap day is the last of its year, in cycles of 400 years. -/
def civilDate (day : Nat) : Nat × Nat × Nat :=
  let z := day + 719468
  let ofCycle := z % 146097
  let year := (ofCycle - ofCycle / 1460 + ofCycle / 36524 - ofCycle / 146096) / 365
  let ofYear := ofCycle - (365 * year + year / 4 - year / 100)
  let month := (5 * ofYear + 2) / 153
  let ofMonth := ofYear - (153 * month + 2) / 5 + 1
  let shown := if month < 10 then month + 3 else month - 9
  (year + 400 * (z / 146097) + (if shown ≤ 2 then 1 else 0), shown, ofMonth)

/-- The part of a second. -/
def fraction (nanoseconds : Nat) : List Char :=
  if nanoseconds = 0 then []
  else if nanoseconds % 1000000 = 0 then '.' :: digits 3 (nanoseconds / 1000000)
  else if nanoseconds % 1000 = 0 then '.' :: digits 6 (nanoseconds / 1000)
  else '.' :: digits 9 nanoseconds

/-- A point in time as text. -/
def write (t : Instant) : String :=
  let (year, month, day) := civilDate (t.seconds / 86400)
  let second := t.seconds % 86400
  String.ofList <|
    digits 4 year ++ '-' :: digits 2 month ++ '-' :: digits 2 day
      ++ 'T' :: digits 2 (second / 3600) ++ ':' :: digits 2 (second / 60 % 60)
      ++ ':' :: digits 2 (second % 60) ++ fraction t.nanoseconds ++ "+00:00".toList

end Instant

end ScriptDeps
