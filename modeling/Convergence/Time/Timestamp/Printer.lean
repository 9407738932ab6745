import Convergence.Time.Timestamp
import Convergence.Text.Decimal
/-!
# Writing points in time

`YYYY-MM-DDTHH:MM:SS`, the fraction of the second if it is not zero, and `Z`.  The fraction has 3, 6
or 9 digits, the fewest that are exact.  A year outside 0 to 9999 has a sign and at least four
digits more.
-/

namespace Convergence.Timestamp

/-- A year: four digits, or a sign and at least four digits. -/
def yearChars (year : Int) : List Char :=
  if 0 ≤ year ∧ year ≤ 9999 then Decimal.padded 4 year.toNat
  else (if year < 0 then '-' else '+') :: Decimal.padded 4 year.natAbs

/-- The fraction of a second, with its point, if it is not zero. -/
def fractionChars (nanosecond : Nat) : List Char :=
  if nanosecond = 0 then []
  else if nanosecond % 1000000 = 0 then '.' :: Decimal.padded 3 (nanosecond / 1000000)
  else if nanosecond % 1000 = 0 then '.' :: Decimal.padded 6 (nanosecond / 1000)
  else '.' :: Decimal.padded 9 nanosecond

/-- The second as a clock shows it: 60 in a leap second. -/
def shownSecond (t : Timestamp) : Nat := t.second + t.nanosecond / 1000000000

/-- The characters of a point in time. -/
def chars (t : Timestamp) : List Char :=
  yearChars t.date.year
    ++ '-' :: Decimal.padded 2 t.date.month
    ++ '-' :: Decimal.padded 2 t.date.day
    ++ 'T' :: Decimal.padded 2 t.hour
    ++ ':' :: Decimal.padded 2 t.minute
    ++ ':' :: Decimal.padded 2 t.shownSecond
    ++ fractionChars (t.nanosecond % 1000000000)
    ++ ['Z']

/-- The text of a point in time. -/
def text (t : Timestamp) : String := String.ofList t.chars

end Convergence.Timestamp
