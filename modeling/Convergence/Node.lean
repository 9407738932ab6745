/-!
# Nodes

A `Node` is the data of a document, whatever its format: what the JSON and TOML readers produce,
what records are decoded from and encoded to, and what the JSON, YAML and TOML printers write.

Two constructors exist only on the reading side.  `inexact` is a number that is no 64-bit integer;
it is kept as its literal.  `garbled` is a well-formed piece of a document that stands for no
value, such as a text naming half of a surrogate pair: it may be skipped, but not used.
-/

namespace Convergence

/-- The data of a document. -/
inductive Node where
  /-- No value. -/
  | null
  /-- A truth value. -/
  | bool (value : Bool)
  /-- An integer that fits in 64 bits, with or without sign. -/
  | int (value : Int)
  /-- Any other number, as its literal. -/
  | inexact (literal : String)
  /-- A text. -/
  | str (value : String)
  /-- A sequence. -/
  | seq (items : List Node)
  /-- Members under names, in the order of the document; a name may be repeated. -/
  | map (members : List (String × Node))
  /-- A well-formed piece that stands for no value. -/
  | garbled
deriving Repr, Inhabited

namespace Node

/-- The natural number as a node. -/
def nat (n : Nat) : Node := .int n

/-- Integers that fit in 64 bits, with or without sign. -/
def fits64 (n : Int) : Bool := -((UInt64.size / 2 : Nat) : Int) ≤ n && n < (UInt64.size : Int)

mutual

/-- How many sequences and maps are nested in each other, at most. -/
def depth : Node → Nat
  | .seq items => depthItems items + 1
  | .map members => depthMembers members + 1
  | _ => 0

/-- The greatest depth of the items. -/
def depthItems : List Node → Nat
  | [] => 0
  | n :: rest => max (depth n) (depthItems rest)

/-- The greatest depth of the members. -/
def depthMembers : List (String × Node) → Nat
  | [] => 0
  | (_, n) :: rest => max (depth n) (depthMembers rest)

end

mutual

/-- No part of the node is garbled. -/
def sound : Node → Bool
  | .seq items => soundItems items
  | .map members => soundMembers members
  | .garbled => false
  | _ => true

/-- No part of any item is garbled. -/
def soundItems : List Node → Bool
  | [] => true
  | n :: rest => sound n && soundItems rest

/-- No part of any member is garbled. -/
def soundMembers : List (String × Node) → Bool
  | [] => true
  | (_, n) :: rest => sound n && soundMembers rest

end

/-- The text of a text node. -/
def text? : Node → Option String
  | .str s => some s
  | _ => none

/-- The truth value of a node that is one. -/
def bool? : Node → Option Bool
  | .bool b => some b
  | _ => none

/-- The integer of an integer node that is at least zero and below the bound. -/
def natBelow? (bound : Nat) : Node → Option Nat
  | .int n => if 0 ≤ n ∧ n.toNat < bound then some n.toNat else none
  | _ => none

end Node

end Convergence
