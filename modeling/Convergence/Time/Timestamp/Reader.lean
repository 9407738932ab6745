import Convergence.Time.Timestamp
import Convergence.Text.Decimal
import Convergence.Text.Blank
/-!
# Reading points in time

A date, one of `T`, `t` and a blank, a time of day and the distance from universal time, as in
`2024-05-01T08:30:00.25+02:00`.  Numbers may have fewer digits than usual and white space before
them; digits of the fraction beyond the ninth are dropped.  The distance is `Z`, `UTC`, or a sign
with two digits of hours and two of minutes.
-/

namespace Convergence.Timestamp

/-- A number of at most so many digits, with what follows it. -/
def digits? (most : Nat) (cs : List Char) : Option (Nat × List Char) :=
  let digits := (cs.take most).takeWhile Char.isDigit
  (Decimal.value? digits).map (·, cs.drop digits.length)

/-- A number that may have white space before it. -/
def number? (most : Nat) (cs : List Char) : Option (Nat × List Char) :=
  digits? most (Text.trimStart cs)

/-- A year: up to four digits, or a sign and any number of digits. -/
def year? (cs : List Char) : Option (Int × List Char) :=
  match Text.trimStart cs with
  | '-' :: rest => (digits? rest.length rest).map fun (n, rest) => (-(n : Int), rest)
  | '+' :: rest => (digits? rest.length rest).map fun (n, rest) => ((n : Int), rest)
  | rest => (digits? 4 rest).map fun (n, rest) => ((n : Int), rest)

/-- What follows a separator, which may have white space before it. -/
def after? (separator : Char) (cs : List Char) : Option (List Char) :=
  match Text.trimStart cs with
  | c :: rest => if c = separator then some rest else none
  | [] => none

/-- A year, a month and a day. -/
def date? (cs : List Char) : Option (Date × List Char) := do
  let (year, cs) ← year? cs
  let cs ← after? '-' cs
  let (month, cs) ← number? 2 cs
  let cs ← after? '-' cs
  let (day, cs) ← number? 2 cs
  let date ← Date.ofNumbers? year month day
  pure (date, cs)

/-- Nanoseconds from the digits of a fraction. -/
def nanoseconds (digits : List Char) : Nat :=
  let kept := digits.take 9
  (Decimal.value? kept).getD 0 * Nat.pow 10 (9 - kept.length)

/-- The nanoseconds of a fraction, if there is one. -/
def fraction? : List Char → Option (Nat × List Char)
  | '.' :: cs =>
    let (digits, rest) := cs.span Char.isDigit
    if digits.isEmpty then none else some (nanoseconds digits, rest)
  | cs => some (0, cs)

/-- A time of day, on a given day. -/
def timeOn? (date : Date) (cs : List Char) : Option (Timestamp × List Char) := do
  let (hour, cs) ← number? 2 cs
  let cs ← after? ':' cs
  let (minute, cs) ← number? 2 cs
  let cs ← after? ':' cs
  let (second, cs) ← number? 2 cs
  let (nanosecond, cs) ← fraction? cs
  let time ← ofNumbers? date hour minute second nanosecond
  pure (time, cs)

/-- Two digits. -/
def twoDigits? : List Char → Option (Nat × List Char)
  | a :: b :: rest => (Decimal.value? [a, b]).map (·, rest)
  | _ => none

/-- The sign of a distance; the minus sign of typography counts. -/
def sign? : List Char → Option (Int × List Char)
  | '+' :: rest => some (1, rest)
  | '-' :: rest => some (-1, rest)
  | '\u2212' :: rest => some (-1, rest)
  | _ => none

/-- The minutes by which local time is ahead of universal time. -/
def offset? : List Char → Option (Int × List Char)
  | 'Z' :: rest => some (0, rest)
  | 'z' :: rest => some (0, rest)
  | cs =>
    if (cs.take 3).map Char.toUpper = ['U', 'T', 'C'] then some (0, cs.drop 3)
    else do
      let (sign, cs) ← sign? cs
      let (hours, cs) ← twoDigits? cs
      let (minutes, cs) ← twoDigits? (cs.dropWhile (fun c => c = ':' || Text.isBlank c))
      if hours < 24 ∧ minutes < 60 then pure (sign * (hours * 60 + minutes), cs) else none

/-- The point in time that the characters describe. -/
def ofChars? (cs : List Char) : Option Timestamp := do
  let (date, cs) ← date? cs
  let cs ←
    match cs with
    | c :: rest => if c = 'T' || c = 't' || c = ' ' then some rest else none
    | [] => none
  let (time, cs) ← timeOn? date cs
  let (offset, cs) ← offset? (Text.trimStart cs)
  if (Text.trimStart cs).isEmpty then ofLocal? offset time else none

/-- The point in time that a text describes; none if it describes none. -/
def read? (s : String) : Option Timestamp := ofChars? s.toList

end Convergence.Timestamp
