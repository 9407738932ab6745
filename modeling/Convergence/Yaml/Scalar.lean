import Convergence.Text.Decimal
import Convergence.Text.Scientific
/-!
# Scalars of YAML

How a text is written so that it is read as the same text: plain if nothing speaks against it,
between quotes if it looks like something else, and over several lines if it has line ends.
-/

namespace Convergence.Yaml

/-! ## Texts that look like something else -/

/-- A leading zero with further digits behind it, which is no number. -/
def isZeroPadded : List Char → Bool
  | '0' :: d :: cs => (d :: cs).all Char.isDigit
  | _ => false

/-- The text without a sign before it. -/
def dropSign : List Char → List Char
  | '+' :: cs => cs
  | '-' :: cs => cs
  | cs => cs

/-- The character is a sign. -/
def isSign (c : Char) : Bool := c = '+' || c = '-'

/-- The characters are a number in a base, up to the given one. -/
def fitsIn (most base : Nat) (cs : List Char) : Bool := (Decimal.valueIn? base cs).any (· ≤ most)

/-- The characters are a whole number without its sign, up to the given one: in base ten, or marked
as being in another base. -/
def isMagnitude (most : Nat) : List Char → Bool
  | '0' :: 'x' :: cs => fitsIn most 16 cs
  | '0' :: 'o' :: cs => fitsIn most 8 cs
  | '0' :: 'b' :: cs => fitsIn most 2 cs
  | cs => !isZeroPadded cs && fitsIn most 10 cs

/-- The characters are a whole number of at most 128 bits. -/
def isInteger : List Char → Bool
  | '-' :: cs => isMagnitude (Decimal.bound128 / 2) cs
  | '+' :: cs => isMagnitude (Decimal.bound128 - 1) cs
  | cs => isMagnitude (Decimal.bound128 - 1) cs

/-- The digits at the front of a text, and what follows them. -/
def digits (cs : List Char) : List Char × List Char := cs.span Char.isDigit

/-- The characters are a number with a point or a power of ten, without its sign, and are in the
range of binary64. -/
def isFraction (cs : List Char) : Bool :=
  let (whole, rest) := digits cs
  let (fraction, rest) :=
    match rest with
    | '.' :: more => digits more
    | rest => ([], rest)
  if whole.isEmpty && fraction.isEmpty then false
  else
    match rest with
    | [] => !(Scientific.ofParts whole fraction false []).exceedsBinary64
    | e :: power =>
      let (exponent, rest) := digits (dropSign power)
      (e = 'e' || e = 'E') && !exponent.isEmpty && rest.isEmpty
        && !(Scientific.ofParts whole fraction (power.head? = some '-') exponent).exceedsBinary64

/-- The names of what is no ordinary number. -/
def specialNumbers : List String :=
  [".inf", ".Inf", ".INF", "+.inf", "+.Inf", "+.INF", "-.inf", "-.Inf", "-.INF",
    ".nan", ".NaN", ".NAN"]

/-- The characters are a number that is not whole. -/
def isInexact (cs : List Char) : Bool :=
  specialNumbers.contains (String.ofList cs) || isFraction (dropSign cs)

/-- The names of truth values and of nothing. -/
def reservedWords : List String :=
  ["", "null", "Null", "NULL", "~", "true", "True", "TRUE", "false", "False", "FALSE"]

/-- The text would be read as something else, were it written plain; a number with needless zeros
at its front counts, because some readers take it for a number. -/
def looksOther (cs : List Char) : Bool :=
  reservedWords.contains (String.ofList cs) || isInteger cs || isZeroPadded (dropSign cs)
    || isInexact cs

/-! ## What the characters of a text allow -/

/-- The character ends a line. -/
def isBreak (c : Char) : Bool :=
  c = '\n' || c = '\r' || c.toNat = 0x85 || c.toNat = 0x2028 || c.toNat = 0x2029

/-- The character separates words. -/
def isBlank (c : Char) : Bool := c = ' ' || c = '\t' || isBreak c || c.toNat = 0

/-- The character can be shown as it is. -/
def isPrintable (c : Char) : Bool :=
  let n := c.toNat
  n = 0x0A || (0x20 ≤ n && n ≤ 0x7E) || (0xA0 ≤ n && n ≤ 0xD7FF)
    || (0xE000 ≤ n && n ≤ 0xFFFD && n ≠ 0xFEFF) || 0x10000 ≤ n

/-- Characters that mean something at the front of a text. -/
def leadingMarks : List Char :=
  ['#', ',', '[', ']', '\x7b', '\x7d', '&', '*', '!', '|', '>', '\'', '\"', '%', '@', '\x60']

/-- A mark of the format is in the text behind its first character: a colon before a blank, or a
number sign behind one. -/
def hasInnerMark : List Char → Bool
  | [] => false
  | [_] => false
  | c :: d :: rest =>
    (d = ':' && (rest.head?.all isBlank)) || (d = '#' && isBlank c) || hasInnerMark (d :: rest)

/-- A mark of the format is in the text. -/
def hasMark (cs : List Char) : Bool :=
  match cs with
  | [] => false
  | c :: rest =>
    leadingMarks.contains c
      || ((c = '?' || c = ':' || c = '-') && rest.head?.all isBlank)
      || cs.take 3 = ['-', '-', '-'] || cs.take 3 = ['.', '.', '.']
      || hasInnerMark cs

/-- A blank of the first kind stands right before one of the second kind. -/
def adjacent (first second : Char → Bool) : List Char → Bool
  | c :: d :: rest => (first c && second d) || adjacent first second (d :: rest)
  | _ => false

/-- The character is a blank, and no line end. -/
def isSpace (c : Char) : Bool := c = ' '

/-- The character is a blank or a line end. -/
def isSpaceOrBreak (c : Char) : Bool := isSpace c || isBreak c

/-- The text may stand without quotes. -/
def allowsPlain (cs : List Char) : Bool :=
  !cs.head?.any isSpaceOrBreak && !cs.getLast?.any isSpaceOrBreak
    && !cs.any isBreak && cs.all isPrintable && !hasMark cs

/-- The text may stand between single quotes. -/
def allowsSingle (cs : List Char) : Bool :=
  !adjacent isBreak isSpace cs && !adjacent isSpace isBreak cs && cs.all isPrintable

/-- The text may stand on lines of its own. -/
def allowsBlock (cs : List Char) : Bool :=
  !cs.isEmpty && !(cs.getLast?.any isSpace) && !adjacent isSpace isBreak cs && cs.all isPrintable

/-! ## Writing -/

/-- So many blanks. -/
def pad (indent : Nat) : List Char := List.replicate indent ' '

/-- A character between double quotes. -/
def doubleChar (c : Char) : List Char :=
  if c = '\"' then ['\\', '\"']
  else if c = '\\' then ['\\', '\\']
  else if isPrintable c && !isBreak c then [c]
  else
    match c.toNat with
    | 0x00 => ['\\', '0']
    | 0x07 => ['\\', 'a']
    | 0x08 => ['\\', 'b']
    | 0x09 => ['\\', 't']
    | 0x0A => ['\\', 'n']
    | 0x0B => ['\\', 'v']
    | 0x0C => ['\\', 'f']
    | 0x0D => ['\\', 'r']
    | 0x1B => ['\\', 'e']
    | 0x85 => ['\\', 'N']
    | 0x2028 => ['\\', 'L']
    | 0x2029 => ['\\', 'P']
    | n =>
      if n ≤ 0xFF then ['\\', 'x'] ++ Decimal.hex true 2 n
      else if n ≤ 0xFFFF then ['\\', 'u'] ++ Decimal.hex true 4 n
      else ['\\', 'U'] ++ Decimal.hex true 8 n

/-- Between double quotes. -/
def doubleQuoted (cs : List Char) : List Char := '\"' :: cs.flatMap doubleChar ++ ['\"']

/-- The characters between single quotes.  What follows a line end is indented. -/
def singleChars (indent : Nat) : (afterBreak : Bool) → List Char → List Char
  | afterBreak, [] => if afterBreak then pad indent else []
  | afterBreak, c :: cs =>
    if isSpace c then c :: singleChars indent afterBreak cs
    else if isBreak c then c :: singleChars indent true cs
    else
      (if afterBreak then pad indent else [])
        ++ (if c = '\'' then ['\'', '\''] else [c]) ++ singleChars indent false cs

/-- Between single quotes. -/
def singleQuoted (indent : Nat) (cs : List Char) : List Char :=
  '\'' :: singleChars indent false cs ++ ['\'']

/-- What is said ahead of a text on lines of its own: its indentation if it begins with a blank, and
whether it ends with no line end or with more than one. -/
def blockHints (cs : List Char) : List Char :=
  let indentation := if cs.head?.any isSpaceOrBreak then ['2'] else []
  let ending :=
    match cs.reverse with
    | [] => ['-']
    | [c] => if isBreak c then ['+'] else ['-']
    | c :: d :: _ => if !isBreak c then ['-'] else if isBreak d then ['+'] else []
  indentation ++ ending

/-- The lines of a text, each indented. -/
def blockChars (indent : Nat) : (afterBreak : Bool) → List Char → List Char
  | _, [] => []
  | afterBreak, c :: cs =>
    if isBreak c then c :: blockChars indent true cs
    else (if afterBreak then pad indent else []) ++ c :: blockChars indent false cs

/-- On lines of its own. -/
def block (indent : Nat) (cs : List Char) : List Char :=
  '|' :: blockHints cs ++ '\n' :: blockChars indent true cs

/-- A text whose further lines are indented. -/
def textChars (indent : Nat) (cs : List Char) : List Char :=
  if cs.contains '\n' then if allowsBlock cs then block indent cs else doubleQuoted cs
  else if !looksOther cs && allowsPlain cs then cs
  else if allowsSingle cs then singleQuoted indent cs
  else doubleQuoted cs

end Convergence.Yaml
