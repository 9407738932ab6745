import Convergence.Toml.Quoted
import Convergence.Toml.Scalar
import Convergence.Toml.Table
/-!
# Reading TOML

A document is read statement by statement; the statements then build the tables.  Reading a value
that may hold others takes fuel, which is never short: every step consumes a character.
-/

namespace Convergence.Toml

/-- The character separates words on one line.  A carriage return does, because documents with one
that is not followed by a line feed are refused at once. -/
def isSpace (c : Char) : Bool := c = ' ' || c = '\t' || c = '\r'

/-- The characters from the first that is no space. -/
def skipSpace (cs : List Char) : List Char := cs.dropWhile isSpace

/-- The character may stand in a comment. -/
def allowedInComment (c : Char) : Bool :=
  c = '\t' || c = '\r' || (0x20 ≤ c.toNat && c.toNat ≠ 0x7F)

/-- The characters from the line end behind a comment. -/
def skipComment (cs : List Char) : Option (List Char) :=
  let (comment, rest) := cs.span (· ≠ '\n')
  if comment.all allowedInComment then some rest else none

/-- The characters from the first that belongs to no space, line end or comment. -/
def skipVoid : Bool → List Char → Option (List Char)
  | _, [] => some []
  | inComment, c :: cs =>
    if c = '\n' then skipVoid false cs
    else if inComment then if allowedInComment c then skipVoid true cs else none
    else if isSpace c then skipVoid false cs
    else if c = '#' then skipVoid true cs
    else some (c :: cs)

/-- The characters behind the end of a line, which may have a comment. -/
def endLine? (cs : List Char) : Option (List Char) :=
  match skipSpace cs with
  | [] => some []
  | '\n' :: rest => some rest
  | '#' :: rest => (skipComment rest).map List.tail
  | _ => none

/-! ## Names -/

/-- The character may stand in a name without quotes. -/
def isNameChar (c : Char) : Bool := c.isAlphanum || c = '_' || c = '-'

/-- One name, and what follows it. -/
def name? : List Char → Option (String × List Char)
  | '\"' :: cs => oneLine? '\"' cs
  | '\'' :: cs => oneLine? '\'' cs
  | cs =>
    let (name, rest) := cs.span isNameChar
    if name.isEmpty then none else some (String.ofList name, rest)

/-- Names with dots between them, and what follows them and the spaces behind them. -/
def path? : Nat → List Char → Option (List String × List Char)
  | 0, _ => none
  | fuel + 1, cs =>
    match name? (skipSpace cs) with
    | none => none
    | some (name, rest) =>
      match skipSpace rest with
      | '.' :: more => (path? fuel more).map fun (path, rest) => (name :: path, rest)
      | rest => some ([name], rest)

/-! ## Values -/

/-- How deeply lists and inline tables may be nested. -/
def nestingLimit : Nat := 80

mutual

/-- A value at most `depth` levels deep, and what follows it. -/
def value? : (fuel depth : Nat) → List Char → Option (Node × List Char)
  | 0, _, _ => none
  | fuel + 1, depth, cs =>
    match cs with
    | '\"' :: rest => (quoted? '\"' rest).map fun (s, rest) => (.str s, rest)
    | '\'' :: rest => (quoted? '\'' rest).map fun (s, rest) => (.str s, rest)
    | '[' :: rest =>
      match depth with
      | 0 => none
      | depth + 1 => (items? fuel depth rest).map fun (items, rest) => (.seq items, rest)
    | '\x7b' :: rest =>
      match depth with
      | 0 => none
      | depth + 1 =>
        match pairs? fuel depth rest with
        | some (pairs, rest) => (inlineNode? pairs).map (·, rest)
        | none => none
    | _ => bare? cs

/-- The items of a list up to its closing bracket, and what follows it. -/
def items? : (fuel depth : Nat) → List Char → Option (List Node × List Char)
  | 0, _, _ => none
  | fuel + 1, depth, cs =>
    match skipVoid false cs with
    | none => none
    | some (']' :: rest) => some ([], rest)
    | some cs =>
      match value? fuel depth cs with
      | none => none
      | some (item, rest) =>
        match skipVoid false rest with
        | some (',' :: rest) =>
          (items? fuel depth rest).map fun (items, rest) => (item :: items, rest)
        | some (']' :: rest) => some ([item], rest)
        | _ => none

/-- The pairs of an inline table up to its closing brace, and what follows it. -/
def pairs? : (fuel depth : Nat) → List Char → Option (List (List String × Node) × List Char)
  | 0, _, _ => none
  | fuel + 1, depth, cs =>
    match skipVoid false cs with
    | none => none
    | some ('\x7d' :: rest) => some ([], rest)
    | some cs =>
      match path? (cs.length + 1) cs with
      | some (path, '=' :: rest) =>
        match value? fuel depth (skipSpace rest) with
        | none => none
        | some (item, rest) =>
          match skipVoid false rest with
          | some (',' :: rest) =>
            (pairs? fuel depth rest).map fun (pairs, rest) => ((path, item) :: pairs, rest)
          | some ('\x7d' :: rest) => some ([(path, item)], rest)
          | _ => none
      | _ => none

end

/-! ## Statements -/

/-- The statement that the characters begin with, up to the end of its line. -/
def statement? (cs : List Char) : Option (Statement × List Char) :=
  match cs with
  | '[' :: '[' :: rest =>
    match path? (rest.length + 1) rest with
    | some (path, ']' :: ']' :: rest) => (endLine? rest).map (.element path, ·)
    | _ => none
  | '[' :: rest =>
    match path? (rest.length + 1) rest with
    | some (path, ']' :: rest) => (endLine? rest).map (.header path, ·)
    | _ => none
  | _ =>
    match path? (cs.length + 1) cs with
    | some (path, '=' :: rest) =>
      match value? (2 * rest.length + 2) nestingLimit (skipSpace rest) with
      | some (value, rest) => (endLine? rest).map (.pair path value, ·)
      | none => none
    | _ => none

/-- The statements of a document. -/
def statements? : (fuel : Nat) → List Char → Option (List Statement)
  | 0, _ => none
  | fuel + 1, cs =>
    match skipVoid false cs with
    | none => none
    | some [] => some []
    | some cs =>
      match statement? cs with
      | some (statement, rest) => (statements? fuel rest).map (statement :: ·)
      | none => none

/-- Every carriage return is followed by a line feed. -/
def returnsPaired : List Char → Bool
  | [] => true
  | c :: cs => (c ≠ '\r' || cs.head? = some '\n') && returnsPaired cs

/-- The text without a byte order mark. -/
def dropMark : List Char → List Char
  | '\uFEFF' :: cs => cs
  | cs => cs

/-- The node that a TOML text describes; none if it is no TOML text. -/
def read? (s : String) : Option Node :=
  let cs := dropMark s.toList
  if returnsPaired cs then
    let root := (statements? (cs.length + 1) cs).bind fun statements => build? statements [] []
    root.map fun ms => .map (membersOf ms)
  else none

end Convergence.Toml
