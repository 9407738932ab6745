import Convergence.Node
import Convergence.Text.Decimal
/-!
# Writing JSON

Two layouts: `compact` has no white space, `pretty` puts each item and member on a line of its own,
indented by two blanks.  Both escape quotes, backslashes and control characters, and nothing else.
-/

namespace Convergence.Json

/-- A character of a text as it stands between quotes. -/
def escapeChar (c : Char) : List Char :=
  if c = '\"' then ['\\', '\"']
  else if c = '\\' then ['\\', '\\']
  else if c.toNat = 0x08 then ['\\', 'b']
  else if c.toNat = 0x09 then ['\\', 't']
  else if c.toNat = 0x0A then ['\\', 'n']
  else if c.toNat = 0x0C then ['\\', 'f']
  else if c.toNat = 0x0D then ['\\', 'r']
  else if c.toNat < 0x20 then ['\\', 'u'] ++ Decimal.hex false 4 c.toNat
  else [c]

/-- A text between quotes. -/
def quoted (s : String) : List Char := '\"' :: s.toList.flatMap escapeChar ++ ['\"']

/-- A node that holds no other. -/
def scalar : Node → List Char
  | .bool true => ['t', 'r', 'u', 'e']
  | .bool false => ['f', 'a', 'l', 's', 'e']
  | .int n => Decimal.intNumeral n
  | .inexact literal => literal.toList
  | .str s => quoted s
  | _ => ['n', 'u', 'l', 'l']

/-! ## Without white space -/

mutual

/-- A node without white space. -/
def compactChars : Node → List Char
  | .seq items => '[' :: compactItems items ++ [']']
  | .map members => '\x7b' :: compactMembers members ++ ['\x7d']
  | n => scalar n

/-- Items with commas between them. -/
def compactItems : List Node → List Char
  | [] => []
  | [n] => compactChars n
  | n :: m :: rest => compactChars n ++ ',' :: compactItems (m :: rest)

/-- Members with commas between them. -/
def compactMembers : List (String × Node) → List Char
  | [] => []
  | [(name, n)] => quoted name ++ ':' :: compactChars n
  | (name, n) :: m :: rest =>
    quoted name ++ ':' :: compactChars n ++ ',' :: compactMembers (m :: rest)

end

/-- The JSON text of a node, without white space. -/
def compact (n : Node) : String := String.ofList (compactChars n)

/-! ## One item or member a line -/

/-- A new line with an indentation of the given number of steps. -/
def newLine (level : Nat) : List Char := '\n' :: List.replicate (2 * level) ' '

mutual

/-- A node whose first line stands at the given level. -/
def prettyChars (level : Nat) : Node → List Char
  | .seq [] => ['[', ']']
  | .seq (n :: rest) => '[' :: prettyItems (level + 1) (n :: rest) ++ newLine level ++ [']']
  | .map [] => ['\x7b', '\x7d']
  | .map (m :: rest) =>
    '\x7b' :: prettyMembers (level + 1) (m :: rest) ++ newLine level ++ ['\x7d']
  | n => scalar n

/-- Items on lines of the given level, with commas behind all but the last. -/
def prettyItems (level : Nat) : List Node → List Char
  | [] => []
  | [n] => newLine level ++ prettyChars level n
  | n :: m :: rest =>
    newLine level ++ prettyChars level n ++ ',' :: prettyItems level (m :: rest)

/-- Members on lines of the given level, with commas behind all but the last. -/
def prettyMembers (level : Nat) : List (String × Node) → List Char
  | [] => []
  | [(name, n)] => newLine level ++ quoted name ++ ':' :: ' ' :: prettyChars level n
  | (name, n) :: m :: rest =>
    newLine level ++ quoted name ++ ':' :: ' ' :: prettyChars level n
      ++ ',' :: prettyMembers level (m :: rest)

end

/-- The JSON text of a node, one item or member a line. -/
def pretty (n : Node) : String := String.ofList (prettyChars 0 n)

end Convergence.Json
