import Convergence.Record.ChangeEvent
import Convergence.Store.Bus
/-!
# The store

Integration records by id.  Every change of a record is announced on the bus, unless the store is a
silent one.  Calls of the store can be made to fail a number of times; a call that fails changes no
record.
-/

namespace Convergence

/-- The operations of the store. -/
inductive StoreCall where
  | fetch
  | fetchAll
  | create
  | update
  | delete
deriving DecidableEq, Repr

/-- The name of an operation. -/
def StoreCall.name : StoreCall → String
  | .fetch => "fetch"
  | .fetchAll => "fetch_all"
  | .create => "create"
  | .update => "update"
  | .delete => "delete"

/-- Records, and the bus on which their changes are announced. -/
structure Store where
  records : Dict Integration := .empty
  bus : Bus := {}
  /-- Changes are announced. -/
  announces : Bool := true
  /-- How many of the next calls of an operation fail. -/
  faults : StoreCall → Nat := fun _ => 0

namespace Store

/-- The record of an id, whatever calls would fail. -/
def record? (s : Store) (id : IntegrationId) : Option Integration := s.records.find? id

/-- What a call that is made to fail fails with. -/
def faultOf (call : StoreCall) : StoreError := .operationFailed call.name "connection reset"

/-- Lets the next calls of an operation fail. -/
def failNext (s : Store) (call : StoreCall) (times : Nat) : Store :=
  { s with faults := fun c => if c = call then times else s.faults c }

/-- One call of an operation: the error it fails with, if any. -/
def enter (s : Store) (call : StoreCall) : Option StoreError × Store :=
  match s.faults call with
  | 0 => (none, s)
  | n + 1 => (some (faultOf call), s.failNext call n)

/-- Announces a change of a record. -/
def announce (s : Store) (action : ChangeAction) (id : IntegrationId) : Store :=
  if s.announces then
    let event := ChangeEvent.about action .integration id
    { s with bus := (s.bus.broadcast ⟨ChangeEvent.topic, event.encode⟩).2 }
  else s

/-- Reads a record. -/
def fetch (s : Store) (id : IntegrationId) : Except StoreError (Option Integration) × Store :=
  match s.enter .fetch with
  | (some e, s) => (.error e, s)
  | (none, s) => (.ok (s.record? id), s)

/-- Reads every record, in the order of their ids. -/
def fetchAll (s : Store) : Except StoreError (List Integration) × Store :=
  match s.enter .fetchAll with
  | (some e, s) => (.error e, s)
  | (none, s) => (.ok s.records.values, s)

/-- Adds a record under an id that no record has. -/
def create (s : Store) (i : Integration) : Except StoreError Integration × Store :=
  match s.enter .create with
  | (some e, s) => (.error e, s)
  | (none, s) =>
    if s.records.contains i.id then (.error (.alreadyExists i.id), s)
    else (.ok i, { s with records := s.records.insert i.id i }.announce .created i.id)

/-- Replaces the record of an id. -/
def update (s : Store) (i : Integration) : Except StoreError Unit × Store :=
  match s.enter .update with
  | (some e, s) => (.error e, s)
  | (none, s) =>
    if s.records.contains i.id then
      (.ok (), { s with records := s.records.insert i.id i }.announce .updated i.id)
    else (.error (.notFound i.id), s)

/-- Removes a record; tells whether there was one. -/
def delete (s : Store) (id : IntegrationId) : Except StoreError Bool × Store :=
  match s.enter .delete with
  | (some e, s) => (.error e, s)
  | (none, s) =>
    if s.records.contains id then
      (.ok true, { s with records := s.records.erase id }.announce .deleted id)
    else (.ok false, s)

end Store

end Convergence
