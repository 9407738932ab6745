import Convergence.Backend.Codec
import Convergence.Config.App
/-!
# Seeds

Integrations to create when the application starts, as listed in a JSON file.
-/

namespace Convergence

/-- An integration to create. -/
structure Seed where
  /-- Its id; one is made up if there is none. -/
  id : Option String := none
  name : String
  desired : Option State := none
  /-- The credential, which never expires. -/
  token : Option String := none
  steps : List Step := []
deriving DecidableEq, Repr

namespace Seed

/-- The fields of a seed. -/
def fieldNames : List String := ["id", "name", "desired_state", "token", "steps"]

/-- The seed that a node describes. -/
def ofNode? (f : Format) (n : Node) : Option Seed := do
  let m ← n.fields? f fieldNames
  let id ← m.optional "id" Node.text?
  let name ← m.required "name" Node.text?
  let desired ← m.optional "desired_state" State.ofNode?
  let token ← m.optional "token" Node.text?
  let steps ← m.defaulted "steps" [] (Node.list? (Step.ofNode? f))
  pure { id, name, desired, token, steps }

/-- The node of a seed; what is missing is written as null. -/
def node (s : Seed) : Node :=
  .map [("id", orNull .str s.id), ("name", .str s.name),
    ("desired_state", orNull State.node s.desired), ("token", orNull .str s.token),
    ("steps", listNode Step.node s.steps)]

/-- The integration to create; `freshId` is its id if the seed has none. -/
def integration (s : Seed) (freshId : String) (now : Timestamp) : Integration :=
  { id := s.id.getD freshId
    name := s.name
    desired := s.desired
    current := some .draft
    steps := s.steps
    token := s.token.map fun value => { value }
    createdAt := now }

/-- The seeds listed in a file. -/
def load (file : File) : Except AppError (List Seed) :=
  match file.content with
  | .error fault => .error (.readSeeds file.path fault)
  | .ok text =>
    match (Json.read? text).bind (Node.list? (ofNode? .json)) with
    | some seeds => .ok seeds
    | none => .error (.parseSeeds file.path "no JSON text of seeds")

end Seed

end Convergence
