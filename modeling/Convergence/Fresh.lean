import Convergence.Text.Decimal
/-!
# Made-up identifiers

Identifiers and secrets that are made from random numbers.  An identifier begins with the time at
which it was made, so that identifiers of the same number of digits sort by age.
-/

namespace Convergence.Fresh

/-- The digits of base 32: the letters that look like another digit are left out. -/
def digits : List Char := "0123456789ABCDEFGHJKMNPQRSTVWXYZ".toList

/-- The lowest `width` digits of a number in base 32, most significant first. -/
def base32 : (width n : Nat) → List Char
  | 0, _ => []
  | w + 1, n => base32 w (n / 32) ++ [digits.getD (n % 32) '0']

/-- An identifier: ten digits of milliseconds since 1970, and sixteen digits of a random number. -/
def id (milliseconds random : Nat) : String :=
  String.ofList (base32 10 milliseconds ++ base32 16 random)

/-- A secret of 122 random bits: hexadecimal digits in groups of 8, 4, 4, 4 and 12, where the third
group begins with 4 and the fourth with 8, 9, a or b. -/
def secret (random : Nat) : String :=
  let hex (width shift : Nat) : List Char := Decimal.hex false width (random >>> shift)
  String.ofList (hex 8 90 ++ '-' :: hex 4 74 ++ '-' :: '4' :: hex 3 62
    ++ '-' :: Decimal.digitChar (8 + (random >>> 60) % 4) :: hex 3 48 ++ '-' :: hex 12 0)

end Convergence.Fresh
