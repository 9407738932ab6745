import Convergence.Node
/-!
# Decoding records from nodes

A record is written as a map with a member for each of its fields, or as the sequence of their
values.  `Node.fields?` gives access to the fields by name in both forms; `required`, `optional` and
`defaulted` read one of them.

Members of a map under other names are skipped, and their order does not matter; a name of the
record may not be repeated.
-/

namespace Convergence

/-- What documents of a format allow. -/
structure Format where
  /-- A sequence in place of a record has no more items than the record has fields. -/
  strictSequences : Bool
  /-- How deeply a part that is kept whole while it is read may be nested. -/
  nestingLimit : Nat

namespace Format

/-- What a JSON document allows. -/
def json : Format := ⟨true, 127⟩

/-- What a TOML document allows; the depth of its values is limited by its own reader. -/
def toml : Format := ⟨false, UInt64.size⟩

/-- What the format allows inside one more record. -/
def inner (f : Format) : Format := { f with nestingLimit := f.nestingLimit - 1 }

end Format

/-- The fields of a record that are present, by name. -/
abbrev Fields := String → Option Node

namespace Node

/-- How many members have the name. -/
def occurrences (name : String) (members : List (String × Node)) : Nat :=
  members.countP (fun m => m.1 == name)

/-- The first node under a name. -/
def member? (members : List (String × Node)) (name : String) : Option Node :=
  (members.find? (fun m => m.1 == name)).map (·.2)

/-- The fields of a record with the given field names.  None if the node is neither a map nor a
sequence, if a map has one of the names twice, or if a sequence is longer than allowed. -/
def fields? (format : Format) (names : List String) : Node → Option Fields
  | .map members =>
    if names.all (fun name => occurrences name members ≤ 1) then some (member? members) else none
  | .seq items =>
    if format.strictSequences && names.length < items.length then none
    else some (member? (names.zip items))
  | _ => none

/-- The items of a sequence, each read in the same way. -/
def list? {α : Type} (read : Node → Option α) : Node → Option (List α)
  | .seq items => items.mapM read
  | _ => none

/-- The name that stands for one of several cases: a text, or a map from the name to nothing. -/
def name? : Node → Option String
  | .str s => some s
  | .map [(name, .null)] => some name
  | _ => none

end Node

namespace Fields

variable {α : Type}

/-- A field that must be present. -/
def required (m : Fields) (name : String) (read : Node → Option α) : Option α :=
  (m name).bind read

/-- A field that may be absent or null. -/
def optional (m : Fields) (name : String) (read : Node → Option α) : Option (Option α) :=
  match m name with
  | none => some none
  | some .null => some none
  | some n => (read n).map some

/-- A field with a default value for when it is absent. -/
def defaulted (m : Fields) (name : String) (default : α) (read : Node → Option α) : Option α :=
  match m name with
  | none => some default
  | some n => read n

end Fields

/-- A member that is present if there is a value. -/
def optionalMember {α : Type} (name : String) (write : α → Node) : Option α → List (String × Node)
  | some a => [(name, write a)]
  | none => []

end Convergence
