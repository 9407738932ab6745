import Convergence.Node
import Convergence.Text.Scientific
import Convergence.Time.Date
/-!
# Bare values of TOML

Truth values, numbers, dates and times are written without quotes.  `bareNode?` gives the node of
such a word.  A date or time becomes a map with one member, which no record knows.
-/

namespace Convergence.Toml

/-- Digits with single underscores between them; the underscores are left out. -/
def ungroup (isDigit : Char → Bool) : List Char → Option (List Char)
  | [] => none
  | [c] => if isDigit c then some [c] else none
  | c :: d :: rest =>
    if isDigit c then
      if d = '_' then (ungroup isDigit rest).map (c :: ·)
      else (ungroup isDigit (d :: rest)).map (c :: ·)
    else none

/-! ## Numbers -/

/-- The node of an integer.  One of more than 64 bits is garbled, one of more than 128 bits is
refused. -/
def integerNode? (negative : Bool) (n : Nat) : Option Node :=
  let value : Int := if negative then -(n : Int) else n
  if Node.fits64 value then some (.int value)
  else if -((Decimal.bound128 / 2 : Nat) : Int) ≤ value ∧ value < (Decimal.bound128 : Int) then
    some .garbled
  else none

/-- The digits of a whole number, which has no needless zero at its front. -/
def wholeDigits? (cs : List Char) : Option (List Char) :=
  match ungroup Char.isDigit cs with
  | some digits => if digits.length > 1 && digits.head? = some '0' then none else some digits
  | none => none

/-- The digits behind the point, if there is one. -/
def fractionDigits? : List Char → Option (List Char)
  | [] => some []
  | _ :: cs => ungroup Char.isDigit cs

/-- Sign and digits of the power of ten, if there is one. -/
def powerDigits? : List Char → Option (Bool × List Char)
  | [] => some (false, [])
  | _ :: '-' :: cs => (ungroup Char.isDigit cs).map (true, ·)
  | _ :: '+' :: cs => (ungroup Char.isDigit cs).map (false, ·)
  | _ :: cs => (ungroup Char.isDigit cs).map (false, ·)

/-- The node of a number in base ten, without its sign. -/
def decimalNode? (negative : Bool) (cs : List Char) : Option Node := do
  let (scaled, power) := cs.span (fun c => c ≠ 'e' && c ≠ 'E')
  let (whole, fraction) := scaled.span (· ≠ '.')
  let wholeDigits ← wholeDigits? whole
  let fractionDigits ← fractionDigits? fraction
  let (negativePower, powerDigits) ← powerDigits? power
  let magnitude := Scientific.ofParts wholeDigits fractionDigits negativePower powerDigits
  if fraction.isEmpty && power.isEmpty then integerNode? negative magnitude.mantissa
  else if magnitude.exceedsBinary64 then none
  else pure (.inexact (String.ofList (if negative then '-' :: cs else cs)))

/-- The node of a number in another base. -/
def basedNode? (base : Nat) (cs : List Char) : Option Node :=
  ((ungroup (fun c => (Decimal.hexDigit? c).isSome) cs).bind (Decimal.valueIn? base)).bind
    (integerNode? false)

/-- The node of a number without its sign; only numbers in base ten may have one. -/
def unsignedNode? (signed negative : Bool) : List Char → Option Node
  | ['i', 'n', 'f'] => some (.inexact "inf")
  | ['n', 'a', 'n'] => some (.inexact "nan")
  | '0' :: 'x' :: cs => if signed then none else basedNode? 16 cs
  | '0' :: 'o' :: cs => if signed then none else basedNode? 8 cs
  | '0' :: 'b' :: cs => if signed then none else basedNode? 2 cs
  | cs => decimalNode? negative cs

/-- The node of a number. -/
def numberNode? : List Char → Option Node
  | '-' :: cs => unsignedNode? true true cs
  | '+' :: cs => unsignedNode? true false cs
  | cs => unsignedNode? false false cs

/-! ## Dates and times -/

/-- What follows a number of exactly so many digits, with the number. -/
def exactDigits? (count : Nat) (cs : List Char) : Option (Nat × List Char) :=
  let digits := cs.take count
  if digits.length = count ∧ digits.all Char.isDigit then
    (Decimal.value? digits).map (·, cs.drop count)
  else none

/-- What follows a character. -/
def after? (c : Char) : List Char → Option (List Char)
  | d :: cs => if d = c then some cs else none
  | [] => none

/-- What follows a date. -/
def afterDate? (cs : List Char) : Option (List Char) := do
  let (year, cs) ← exactDigits? 4 cs
  let cs ← after? '-' cs
  let (month, cs) ← exactDigits? 2 cs
  let cs ← after? '-' cs
  let (day, cs) ← exactDigits? 2 cs
  let _ ← Date.ofNumbers? year month day
  pure cs

/-- What follows the fraction of a second, if there is one. -/
def afterFraction? : List Char → Option (List Char)
  | '.' :: cs => if (cs.head?.any Char.isDigit) then some (cs.dropWhile Char.isDigit) else none
  | cs => some cs

/-- What follows a time of day; the seconds may be left out. -/
def afterTime? (cs : List Char) : Option (List Char) := do
  let (hour, cs) ← exactDigits? 2 cs
  let cs ← after? ':' cs
  let (minute, cs) ← exactDigits? 2 cs
  if 24 ≤ hour ∨ 60 ≤ minute then none
  else
    match cs with
    | ':' :: cs =>
      let (second, cs) ← exactDigits? 2 cs
      if 60 < second then none else afterFraction? cs
    | cs => pure cs

/-- The characters are a distance from universal time, or nothing. -/
def isOffset : List Char → Bool
  | [] => true
  | ['Z'] => true
  | ['z'] => true
  | c :: cs =>
    if c = '+' || c = '-' then
      match exactDigits? 2 cs with
      | some (hours, ':' :: cs) =>
        match exactDigits? 2 cs with
        | some (minutes, []) => hours < 24 && minutes < 60
        | _ => false
      | _ => false
    else false

/-- The characters are a date, a time of day, or both, perhaps with a distance from universal
time. -/
def isMoment (cs : List Char) : Bool :=
  match afterDate? cs with
  | some [] => true
  | some (c :: cs) => (c = 'T' || c = 't' || c = ' ') && (afterTime? cs).any isOffset
  | none => afterTime? cs = some []

/-! ## Words -/

/-- The character ends a bare word. -/
def endsWord (c : Char) : Bool :=
  c = ' ' || c = '\t' || c = '\n' || c = '\r' || c = '#' || c = ',' || c = '=' || c = '['
    || c = ']' || c = '\x7b' || c = '\x7d' || c = '\"' || c = '\''

/-- The node of a date or time. -/
def momentNode (word : List Char) : Node := .map [("date-time", .str (String.ofList word))]

/-- The node of a bare word. -/
def bareNode? (word : List Char) : Option Node :=
  if word = ['t', 'r', 'u', 'e'] then some (.bool true)
  else if word = ['f', 'a', 'l', 's', 'e'] then some (.bool false)
  else if isMoment word then some (momentNode word)
  else numberNode? word

/-- The node of the bare word that the characters begin with, and what follows it.  A date and a
time with one blank between them are one word. -/
def bare? (cs : List Char) : Option (Node × List Char) :=
  let (word, rest) := cs.span (fun c => !endsWord c)
  match afterDate? word, rest with
  | some [], ' ' :: more =>
    let (second, last) := more.span (fun c => !endsWord c)
    if second.isEmpty then (bareNode? word).map (·, rest)
    else (bareNode? (word ++ ' ' :: second)).map (·, last)
  | _, _ => (bareNode? word).map (·, rest)

end Convergence.Toml
