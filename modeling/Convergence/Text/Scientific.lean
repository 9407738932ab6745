import Convergence.Text.Decimal
/-!
# Decimal fractions with an exponent

A number `mantissa * 10 ^ exponent` as written in documents, and the question that readers ask of
it: does it fit the range of binary64 numbers?
-/

namespace Convergence

/-- The magnitude `mantissa * 10 ^ exponent` of a number in a document. -/
structure Scientific where
  /-- All digits of the number, read as one integer. -/
  mantissa : Nat
  /-- The power of ten that the digits are scaled by. -/
  exponent : Int
deriving Repr, DecidableEq

namespace Scientific

/-- The least magnitude that rounds to no finite binary64 number. -/
def binary64Bound : Nat := Nat.pow 2 1024 - Nat.pow 2 970

/-- The magnitude rounds to no finite binary64 number.  Numbers far from the bound are told by
their number of digits, so that no huge power of ten is ever computed. -/
def exceedsBinary64 (s : Scientific) : Bool :=
  if s.mantissa = 0 then false
  else
    let scale : Int := (Decimal.numeral s.mantissa).length + s.exponent
    if scale > 400 then true
    else if scale < 300 then false
    else if 0 ≤ s.exponent then decide (binary64Bound ≤ s.mantissa * Nat.pow 10 s.exponent.toNat)
    else decide (binary64Bound * Nat.pow 10 (-s.exponent).toNat ≤ s.mantissa)

/-- The number of the digits before and after the point, and of the exponent with its sign. -/
def ofParts (whole fraction : List Char) (negativeExponent : Bool) (exponent : List Char) :
    Scientific :=
  let digits := whole ++ fraction
  let power := (Decimal.valueFrom 10 Decimal.digit? 0 exponent).getD 0
  { mantissa := (Decimal.valueFrom 10 Decimal.digit? 0 digits).getD 0
    exponent := (if negativeExponent then -(power : Int) else power) - fraction.length }

end Scientific

end Convergence
