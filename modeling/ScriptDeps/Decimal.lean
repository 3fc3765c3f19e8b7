/-!
# Decimal numbers of double precision

Which decimal numbers are too great for a number of double precision. Such a number has a mantissa
of 53 bits and an exponent below 1024, and the nearest one stands for a decimal number.
-/

namespace ScriptDeps.Decimal

/-- The least whole number that is nearer to the power of two after the greatest finite number than
to that number, or as near. -/
def bound : Nat := Nat.pow 2 1024 - Nat.pow 2 970

/-- `mantissa * 10 ^ exponent` is too great. Numbers of less than 300 or more than 320 digits need
no comparison. -/
def overflows (mantissa : Nat) (exponent : Int) : Bool :=
  let size : Int := (Nat.toDigits 10 mantissa).length + exponent
  if mantissa = 0 ∨ size < 300 then false
  else if size > 320 then true
  else if 0 ≤ exponent then bound ≤ mantissa * Nat.pow 10 exponent.toNat
  else bound * Nat.pow 10 (-exponent).toNat ≤ mantissa

end ScriptDeps.Decimal
