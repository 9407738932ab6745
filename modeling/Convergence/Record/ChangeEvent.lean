import Convergence.Record.Codec
import Convergence.Json.Reader
import Convergence.Json.Printer
/-!
# Change events

What the store announces when a record is created, updated or deleted.  On the bus an event is a
JSON text; kind and id may be missing there, and a kind may be one that nobody knows.
-/

namespace Convergence

/-- A record was created, updated or deleted. -/
structure ChangeEvent where
  action : ChangeAction
  /-- The name of the kind of record. -/
  kindName : Option String := none
  /-- The identity of the record. -/
  id : Option String := none
deriving DecidableEq, Repr

namespace ChangeEvent

/-- The bus topic of change events. -/
def topic : String := "change-event"

/-- The event about a record. -/
def about (action : ChangeAction) (kind : Kind) (id : IntegrationId) : ChangeEvent :=
  { action, kindName := some kind.name, id := some id }

/-- The kind of record, if it is given and known. -/
def kind? (e : ChangeEvent) : Option Kind := e.kindName.bind fun name => (Kind.parse name).toOption

/-- The integration that the event is about, if it is about one. -/
def integrationId? (e : ChangeEvent) : Option IntegrationId :=
  if e.kind? = some .integration then e.id else none

/-- The fields of an event. -/
def fieldNames : List String := ["event", "kind", "id"]

/-- The event that a node describes. -/
def ofNode? (f : Format) (n : Node) : Option ChangeEvent := do
  let m ← n.fields? f fieldNames
  let action ← m.required "event" ChangeAction.ofNode?
  let kindName ← m.optional "kind" Node.text?
  let id ← m.optional "id" Node.text?
  pure { action, kindName, id }

/-- The node of an event. -/
def node (e : ChangeEvent) : Node :=
  .map <| ("event", e.action.node) :: optionalMember "kind" .str e.kindName
    ++ optionalMember "id" .str e.id

/-- The JSON text of an event. -/
def encode (e : ChangeEvent) : String := Json.compact e.node

/-- The event of a JSON text. -/
def decode (s : String) : Except RecordError ChangeEvent :=
  match (Json.read? s).bind (ofNode? .json) with
  | some e => .ok e
  | none => .error (.invalidEvent "no JSON text of an event")

end ChangeEvent

end Convergence
