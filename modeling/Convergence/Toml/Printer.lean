import Convergence.Node
import Convergence.Text.Decimal
/-!
# Writing TOML

A document is a list of tables, each with a header and a line for each of its members.  Texts are
written in the plainest form that can hold them: between double quotes, between single quotes, over
several lines, and with escapes only if nothing else will do.
-/

namespace Convergence.Toml

/-! ## Texts -/

/-- The character is a control character that only an escape can stand for. -/
def isControl (c : Char) : Bool := (c.toNat < 0x20 && c ≠ '\t' && c ≠ '\n') || c.toNat = 0x7F

/-- The longest run of a character, going on from a run of the given length. -/
def longestRun (c : Char) : (run : Nat) → List Char → Nat
  | run, [] => run
  | run, d :: cs => if d = c then longestRun c (run + 1) cs else max run (longestRun c 0 cs)

/-- A character as an escape. -/
def escapeChar (c : Char) : List Char :=
  if c.toNat = 0x08 then ['\\', 'b']
  else if c = '\t' then ['\\', 't']
  else if c = '\n' then ['\\', 'n']
  else if c.toNat = 0x0C then ['\\', 'f']
  else if c = '\r' then ['\\', 'r']
  else if c = '\"' then ['\\', '\"']
  else if c = '\\' then ['\\', '\\']
  else ['\\', 'u'] ++ Decimal.hex true 4 c.toNat

/-- The characters between double quotes.  Line ends stand for themselves between three quotes, and
so do up to two quotes in a row that have no escape before them. -/
def escapedChars (multi : Bool) : (quotes : Nat) → List Char → List Char
  | _, [] => []
  | quotes, c :: cs =>
    if c = '\"' then
      if multi && quotes < 2 then c :: escapedChars multi (quotes + 1) cs
      else escapeChar c ++ escapedChars multi 0 cs
    else if c = '\n' && multi then c :: escapedChars multi 0 cs
    else if isControl c || c = '\t' || c = '\n' || c = '\\' then
      escapeChar c ++ escapedChars multi 0 cs
    else c :: escapedChars multi 0 cs

/-- A line end behind three quotes, for a text with line ends. -/
def openingLine (cs : List Char) : List Char := if cs.contains '\n' then ['\n'] else []

/-- Between double quotes. -/
def basicChars (cs : List Char) : List Char := '\"' :: escapedChars false 0 cs ++ ['\"']

/-- Between single quotes, without escapes. -/
def literalChars (cs : List Char) : List Char := '\'' :: cs ++ ['\'']

/-- Between three double quotes. -/
def multiBasicChars (cs : List Char) : List Char :=
  ['\"', '\"', '\"'] ++ openingLine cs ++ escapedChars true 0 cs ++ ['\"', '\"', '\"']

/-- Between three single quotes, without escapes. -/
def multiLiteralChars (cs : List Char) : List Char :=
  ['\'', '\'', '\''] ++ openingLine cs ++ cs ++ ['\'', '\'', '\'']

/-- A text in the plainest form that can hold it. -/
def quotedChars (cs : List Char) : List Char :=
  let controls := cs.any isControl
  let backslash := cs.contains '\\'
  let lineEnd := cs.contains '\n'
  if !controls && !backslash && !cs.contains '\"' && !lineEnd then basicChars cs
  else if !controls && !cs.contains '\'' && !lineEnd then literalChars cs
  else if !controls && !backslash && longestRun '\"' 0 cs ≤ 2 then multiBasicChars cs
  else if !controls && longestRun '\'' 0 cs ≤ 2 then multiLiteralChars cs
  else if lineEnd then multiBasicChars cs
  else basicChars cs

/-! ## Documents -/

/-- A table of a document: its name and its members, which hold no others. -/
structure Table where
  name : String
  members : List (String × Node)

/-- A value that holds no others. -/
def scalarChars : Node → List Char
  | .bool true => ['t', 'r', 'u', 'e']
  | .bool false => ['f', 'a', 'l', 's', 'e']
  | .int n => Decimal.intNumeral n
  | .inexact literal => literal.toList
  | .str s => quotedChars s.toList
  | _ => []

/-- The line of a member. -/
def memberChars (m : String × Node) : List Char :=
  m.1.toList ++ [' ', '=', ' '] ++ scalarChars m.2 ++ ['\n']

/-- The lines of a table. -/
def tableChars (t : Table) : List Char :=
  '[' :: t.name.toList ++ [']', '\n'] ++ t.members.flatMap memberChars

/-- The lines of tables, with an empty line between each two. -/
def tablesChars : List Table → List Char
  | [] => []
  | [t] => tableChars t
  | t :: u :: rest => tableChars t ++ '\n' :: tablesChars (u :: rest)

/-- The text of a document. -/
def text (tables : List Table) : String := String.ofList (tablesChars tables)

end Convergence.Toml
