import Convergence.Node
import Convergence.Yaml.Scalar
/-!
# Writing YAML

Each member and each item has a line of its own.  The items of a list stand below the name of the
list, not further in.
-/

namespace Convergence.Yaml

/-- A line end, unless the characters end with one. -/
def endLine (cs : List Char) : List Char :=
  if cs.getLast?.any isBreak then cs else cs ++ ['\n']

/-- A node that holds no other. -/
def scalarChars (indent : Nat) : Node → List Char
  | .bool true => ['t', 'r', 'u', 'e']
  | .bool false => ['f', 'a', 'l', 's', 'e']
  | .int n => Decimal.intNumeral n
  | .inexact literal => literal.toList
  | .str s => textChars indent s.toList
  | _ => ['n', 'u', 'l', 'l']

/-- The name can stand before a colon on one line. -/
def isShortName (name : String) : Bool := !name.toList.any isBreak && name.utf8ByteSize ≤ 128

/-- A name with its colon; one that is long or has line ends is announced by a question mark. -/
def nameChars (indent : Nat) (name : String) : List Char :=
  if isShortName name then textChars (indent + 2) name.toList ++ [':']
  else endLine ('?' :: ' ' :: textChars (indent + 2) name.toList) ++ pad indent ++ [':']

/-- The parts with an indentation before all but the first. -/
def joinPadded (indent : Nat) : List (List Char) → List Char
  | [] => []
  | [part] => part
  | part :: next :: rest => part ++ pad indent ++ joinPadded indent (next :: rest)

mutual

/-- What stands behind the colon of a member of a map at the indentation. -/
def valueChars (indent : Nat) : Node → List Char
  | .seq [] => [' ', '[', ']', '\n']
  | .seq (n :: rest) => '\n' :: pad indent ++ joinPadded indent (itemsChars indent (n :: rest))
  | .map [] => [' ', '\x7b', '\x7d', '\n']
  | .map (m :: rest) =>
    '\n' :: pad (indent + 2) ++ joinPadded (indent + 2) (membersChars (indent + 2) (m :: rest))
  | n => ' ' :: endLine (scalarChars (indent + 2) n)

/-- The members of a map at the indentation, each with its lines. -/
def membersChars (indent : Nat) : List (String × Node) → List (List Char)
  | [] => []
  | (name, n) :: rest => (nameChars indent name ++ valueChars indent n) :: membersChars indent rest

/-- The items of a list at the indentation, each with its lines. -/
def itemsChars (indent : Nat) : List Node → List (List Char)
  | [] => []
  | n :: rest => ('-' :: ' ' :: itemChars (indent + 2) n) :: itemsChars indent rest

/-- What stands behind the dash of an item, with further lines at the indentation. -/
def itemChars (indent : Nat) : Node → List Char
  | .seq [] => ['[', ']', '\n']
  | .seq (n :: rest) => joinPadded indent (itemsChars indent (n :: rest))
  | .map [] => ['\x7b', '\x7d', '\n']
  | .map (m :: rest) => joinPadded indent (membersChars indent (m :: rest))
  | n => endLine (scalarChars indent n)

end

/-- The YAML text of a node. -/
def text (n : Node) : String := String.ofList (itemChars 0 n)

end Convergence.Yaml
