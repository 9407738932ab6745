import Convergence.Node
import Convergence.Text.Scientific
/-!
# The tokens of a JSON text

A JSON text is cut into tokens in one pass over its characters; `Mode` says what the pass is in the
middle of.  Texts are collected as code points, because an escape may name half of a surrogate
pair; `pairSurrogates` joins the halves, and fails where one stands alone.
-/

namespace Convergence.Json

/-- A piece of a JSON text. -/
inductive Token where
  | openSeq
  | closeSeq
  | openMap
  | closeMap
  | comma
  | colon
  /-- A text between quotes; none if it names half of a surrogate pair. -/
  | text (value : Option String)
  /-- A number, a truth value or `null`. -/
  | scalar (value : Node)
deriving Inhabited

/-- The white space of JSON. -/
def isSpace (c : Char) : Bool := c = ' ' || c = '\n' || c = '\t' || c = '\r'

/-- The code point is the first half of a surrogate pair. -/
def isLead (u : Nat) : Bool := 0xD800 ≤ u && u ≤ 0xDBFF

/-- The code point is the second half of a surrogate pair. -/
def isTrail (u : Nat) : Bool := 0xDC00 ≤ u && u ≤ 0xDFFF

/-- The characters of a list of code points in which every surrogate is half of a pair. -/
def pairSurrogates : List Nat → Option (List Char)
  | [] => some []
  | u :: rest =>
    if isLead u then
      match rest with
      | v :: rest' =>
        if isTrail v then
          (pairSurrogates rest').map
            (Char.ofNat (0x10000 + (u - 0xD800) * 0x400 + (v - 0xDC00)) :: ·)
        else none
      | [] => none
    else if isTrail u then none
    else (pairSurrogates rest).map (Char.ofNat u :: ·)

/-! ## Numbers -/

/-- A sign and the digits of an exponent. -/
def splitExponent : List Char → Option (Bool × List Char)
  | [] => none
  | c :: rest =>
    let (negative, digits) :=
      if c = '-' then (true, rest) else if c = '+' then (false, rest) else (false, c :: rest)
    if digits.isEmpty || !digits.all Char.isDigit then none else some (negative, digits)

/-- The node of a number's literal.  A plain integer of 64 bits is an `int`; minus zero, fractions,
powers and longer integers are `inexact`; what exceeds every binary64 number is `garbled`. -/
def numberNode? (literal : List Char) : Option Node :=
  let negative := literal.head? = some '-'
  let unsigned := if negative then literal.tail else literal
  let (whole, rest) := unsigned.span Char.isDigit
  if whole.isEmpty || (whole.length > 1 && whole.head? = some '0') then none
  else
    let afterPoint : Option (List Char × List Char) :=
      match rest with
      | '.' :: cs =>
        let (fraction, rest) := cs.span Char.isDigit
        if fraction.isEmpty then none else some (fraction, rest)
      | _ => some ([], rest)
    match afterPoint with
    | none => none
    | some (fraction, rest) =>
      let power : Option (Bool × List Char) :=
        match rest with
        | [] => some (false, [])
        | c :: cs => if c = 'e' || c = 'E' then splitExponent cs else none
      match power with
      | none => none
      | some (negativeExponent, exponent) =>
        let magnitude := Scientific.ofParts whole fraction negativeExponent exponent
        let value : Int := if negative then -(magnitude.mantissa : Int) else magnitude.mantissa
        if fraction.isEmpty && exponent.isEmpty && Node.fits64 value
            && !(negative && value == 0) then
          some (.int value)
        else if magnitude.exceedsBinary64 then some .garbled
        else some (.inexact (String.ofList literal))

/-- The token of a run of characters outside quotes. -/
def wordToken? (word : List Char) : Option Token :=
  if word = ['t', 'r', 'u', 'e'] then some (.scalar (.bool true))
  else if word = ['f', 'a', 'l', 's', 'e'] then some (.scalar (.bool false))
  else if word = ['n', 'u', 'l', 'l'] then some (.scalar .null)
  else (numberNode? word).map .scalar

/-! ## The pass -/

/-- What the pass over the characters is in the middle of. -/
inductive Mode where
  /-- Between tokens. -/
  | idle
  /-- In a text; its code points so far, last first. -/
  | text (units : List Nat)
  /-- In a text, behind a backslash. -/
  | escape (units : List Nat)
  /-- In a text, in the hexadecimal digits of an escape: their value so far and how many are due. -/
  | hex (units : List Nat) (value due : Nat)
  /-- In a word outside quotes; its characters so far, last first. -/
  | word (chars : List Char)

/-- The character begins or ends tokens and stands in no word. -/
def endsWord (c : Char) : Bool :=
  isSpace c || c = '[' || c = ']' || c = '\x7b' || c = '\x7d' || c = ',' || c = ':' || c = '\"'

/-- What a character outside texts and words gives at once, and what it begins. -/
def start (c : Char) : Option Token × Mode :=
  if isSpace c then (none, .idle)
  else if c = '[' then (some .openSeq, .idle)
  else if c = ']' then (some .closeSeq, .idle)
  else if c = '\x7b' then (some .openMap, .idle)
  else if c = '\x7d' then (some .closeMap, .idle)
  else if c = ',' then (some .comma, .idle)
  else if c = ':' then (some .colon, .idle)
  else if c = '\"' then (none, .text [])
  else (none, .word [c])

/-- The code point of an escape of one character. -/
def escaped? (c : Char) : Option Nat :=
  if c = '\"' then some 0x22
  else if c = '\\' then some 0x5C
  else if c = '/' then some 0x2F
  else if c = 'b' then some 0x08
  else if c = 'f' then some 0x0C
  else if c = 'n' then some 0x0A
  else if c = 'r' then some 0x0D
  else if c = 't' then some 0x09
  else none

/-- The token of a text whose code points are given last first. -/
def textToken (units : List Nat) : Token :=
  .text ((pairSurrogates units.reverse).map String.ofList)

/-- The tokens of the characters that follow, in the given mode. -/
def lexFrom : Mode → List Char → Option (List Token)
  | .idle, [] => some []
  | .idle, c :: cs =>
    let (token, mode) := start c
    (lexFrom mode cs).map (token.toList ++ ·)
  | .word chars, [] => (wordToken? chars.reverse).map ([·])
  | .word chars, c :: cs =>
    if endsWord c then
      match wordToken? chars.reverse with
      | some word =>
        let (token, mode) := start c
        (lexFrom mode cs).map (word :: token.toList ++ ·)
      | none => none
    else lexFrom (.word (c :: chars)) cs
  | .text _, [] => none
  | .text units, c :: cs =>
    if c = '\"' then (lexFrom .idle cs).map (textToken units :: ·)
    else if c = '\\' then lexFrom (.escape units) cs
    else if c.toNat < 0x20 then none
    else lexFrom (.text (c.toNat :: units)) cs
  | .escape _, [] => none
  | .escape units, c :: cs =>
    if c = 'u' then lexFrom (.hex units 0 3) cs
    else
      match escaped? c with
      | some u => lexFrom (.text (u :: units)) cs
      | none => none
  | .hex _ _ _, [] => none
  | .hex units value due, c :: cs =>
    match Decimal.hexDigit? c with
    | some d =>
      match due with
      | 0 => lexFrom (.text ((value * 16 + d) :: units)) cs
      | due' + 1 => lexFrom (.hex units (value * 16 + d) due') cs
    | none => none

/-- The tokens of a JSON text; none if some part of it is no token. -/
def lex (cs : List Char) : Option (List Token) := lexFrom .idle cs

end Convergence.Json
