import Convergence.Record.Error
/-!
# Lifecycle states and kinds of records

The states an integration passes through, both as what is wanted and as what is observed, and the
kinds of records that the store announces changes of.  `State.satisfies` says when an observed state
is as good as the wanted one.
-/

namespace Convergence

/-- The same text up to the case of ASCII letters. -/
def sameUpToCase (s t : String) : Bool :=
  s.toList.map Char.toLower == t.toList.map Char.toLower

/-- A lifecycle state of an integration. -/
inductive State where
  /-- Being written, not deployed. -/
  | draft
  /-- On the way to what is wanted. -/
  | pending
  /-- Deployed and running. -/
  | active
  /-- Wanted to be stopped. -/
  | inactive
  /-- Scaled to zero. -/
  | undeployed
  /-- Marked for removal. -/
  | deleted
deriving DecidableEq, Repr, Inhabited

namespace State

/-- Every state, in the order of their listing. -/
def all : List State := [.draft, .pending, .active, .inactive, .undeployed, .deleted]

/-- The name of a state. -/
def name : State → String
  | .draft => "Draft"
  | .pending => "Pending"
  | .active => "Active"
  | .inactive => "Inactive"
  | .undeployed => "Undeployed"
  | .deleted => "Deleted"

/-- The place of a state in the listing. -/
def rank : State → Nat
  | .draft => 0
  | .pending => 1
  | .active => 2
  | .inactive => 3
  | .undeployed => 4
  | .deleted => 5

/-- The observed state fulfils the wanted one.  What is scaled to zero is stopped, and is as little
deployed as a draft. -/
def satisfies (observed wanted : State) : Bool :=
  observed == wanted || (observed == .undeployed && (wanted == .inactive || wanted == .draft))

/-- The state with exactly this name. -/
def ofName? (s : String) : Option State := all.find? (fun st => st.name == s)

/-- The state with this name, in letters of any case. -/
def parse (s : String) : Except RecordError State :=
  match all.find? (fun st => sameUpToCase st.name s) with
  | some st => .ok st
  | none => .error (.unknownState s)

theorem ofName?_name (s : State) : ofName? s.name = some s := by cases s <;> decide

end State

/-- A kind of record in the store. -/
inductive Kind where
  | integration
  | connection
  | connector
  | extension
deriving DecidableEq, Repr, Inhabited

namespace Kind

/-- Every kind. -/
def all : List Kind := [.integration, .connection, .connector, .extension]

/-- The name of a kind in change events. -/
def name : Kind → String
  | .integration => "integration"
  | .connection => "connection"
  | .connector => "connector"
  | .extension => "extension"

/-- The kind with exactly this name. -/
def ofName? (s : String) : Option Kind := all.find? (fun k => k.name == s)

/-- The kind with this name, in letters of any case. -/
def parse (s : String) : Except RecordError Kind :=
  match all.find? (fun k => sameUpToCase k.name s) with
  | some k => .ok k
  | none => .error (.unknownKind s)

end Kind

/-- What happened to a record. -/
inductive ChangeAction where
  | created
  | updated
  | deleted
deriving DecidableEq, Repr, Inhabited

namespace ChangeAction

/-- Every action. -/
def all : List ChangeAction := [.created, .updated, .deleted]

/-- The name of an action in change events. -/
def name : ChangeAction → String
  | .created => "created"
  | .updated => "updated"
  | .deleted => "deleted"

/-- The action with exactly this name. -/
def ofName? (s : String) : Option ChangeAction := all.find? (fun a => a.name == s)

end ChangeAction

end Convergence
