import Convergence.Node
/-!
# Tables of TOML

The statements of a document build up a tree of tables.  Each table may be defined once only: a
table made by a header, one made on the way to another header, and one made by a dotted name differ
in how they may be extended.
-/

namespace Convergence.Toml

/-- How a table came to be. -/
inductive Origin where
  /-- By a header of its own. -/
  | header
  /-- On the way to the header of another table. -/
  | onTheWay
  /-- By a dotted name. -/
  | dotted
deriving DecidableEq, Repr

/-- The tree of a document. -/
inductive Tree where
  /-- A value; it cannot be extended. -/
  | leaf (value : Node)
  /-- A table. -/
  | table (origin : Origin) (members : List (String × Tree))
  /-- A list of tables, the newest one last. -/
  | tables (elements : List (List (String × Tree)))

/-- The members of a table, the oldest first. -/
abbrev Members := List (String × Tree)

/-- One statement of a document. -/
inductive Statement where
  /-- What follows belongs to the table of this name. -/
  | header (path : List String)
  /-- What follows belongs to a new table in the list of this name. -/
  | element (path : List String)
  /-- A name and its value. -/
  | pair (path : List String) (value : Node)

namespace Members

/-- Changes the member of a name, or adds one at the end. -/
def adjust (name : String) (f : Option Tree → Option Tree) : Members → Option Members
  | [] => (f none).map fun t => [(name, t)]
  | (n, t) :: rest =>
    if n = name then (f (some t)).map fun t => (n, t) :: rest
    else (adjust name f rest).map ((n, t) :: ·)

/-- Changes the newest table of a list. -/
def adjustLast (f : Members → Option Members) : List Members → Option (List Members)
  | [] => none
  | [ms] => (f ms).map ([·])
  | ms :: rest => (adjustLast f rest).map (ms :: ·)

/-- Changes what the last name of a header's path stands for; tables that are missing on the way are
made. -/
def atHeader (f : Option Tree → Option Tree) : List String → Members → Option Members
  | [], _ => none
  | [name], ms => adjust name f ms
  | name :: path, ms =>
    adjust name
      (fun
        | none => (atHeader f path []).map (.table .onTheWay)
        | some (.table origin inner) => (atHeader f path inner).map (.table origin)
        | some (.tables elements) => (adjustLast (atHeader f path) elements).map .tables
        | some (.leaf _) => none)
      ms

/-- Changes the table that the path of a header leads to. -/
def inside (f : Members → Option Members) : List String → Members → Option Members
  | [], ms => f ms
  | name :: path, ms =>
    adjust name
      (fun
        | some (.table origin inner) => (inside f path inner).map (.table origin)
        | some (.tables elements) => (adjustLast (inside f path) elements).map .tables
        | _ => none)
      ms

/-- Defines a table by its header. -/
def define : Option Tree → Option Tree
  | none => some (.table .header [])
  | some (.table .onTheWay inner) => some (.table .header inner)
  | _ => none

/-- Begins a new table in a list. -/
def append : Option Tree → Option Tree
  | none => some (.tables [[]])
  | some (.tables elements) => some (.tables (elements ++ [[]]))
  | _ => none

/-- Adds a value under a dotted name.  The tables that the name goes through are made by dotted
names, too, or on the way to a header; the last of them only by dotted names. -/
def addPair (value : Node) : List String → Members → Option Members
  | [], _ => none
  | [name], ms =>
    adjust name
      (fun
        | none => some (.leaf value)
        | some _ => none)
      ms
  | name :: path, ms =>
    adjust name
      (fun
        | none => (addPair value path []).map (.table .dotted)
        | some (.table .dotted inner) => (addPair value path inner).map (.table .dotted)
        | some (.table .onTheWay inner) =>
          if path.length = 1 then none else (addPair value path inner).map (.table .onTheWay)
        | _ => none)
      ms

end Members

/-! ## From trees to nodes -/

mutual

/-- The node of a tree. -/
def Tree.node : Tree → Node
  | .leaf value => value
  | .table _ members => .map (membersOf members)
  | .tables elements => .seq (elementsOf elements)

/-- The members of a map. -/
def membersOf : List (String × Tree) → List (String × Node)
  | [] => []
  | (name, t) :: rest => (name, t.node) :: membersOf rest

/-- The maps of a list of tables. -/
def elementsOf : List (List (String × Tree)) → List Node
  | [] => []
  | ms :: rest => .map (membersOf ms) :: elementsOf rest

end

/-- The tables so far, with the path of the one that is being filled. -/
def build? : List Statement → List String → Members → Option Members
  | [], _, root => some root
  | .header path :: rest, _, root =>
    (root.atHeader Members.define path).bind (build? rest path)
  | .element path :: rest, _, root =>
    (root.atHeader Members.append path).bind (build? rest path)
  | .pair path value :: rest, current, root =>
    (root.inside (Members.addPair value path) current).bind (build? rest current)

/-- The map that the pairs of an inline table make. -/
def inlineNode? (pairs : List (List String × Node)) : Option Node :=
  (pairs.foldlM (fun (ms : Members) p => ms.addPair p.2 p.1) []).map fun ms => .map (membersOf ms)

end Convergence.Toml
