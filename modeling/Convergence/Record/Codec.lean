import Convergence.Decoding
import Convergence.Record.Integration
import Convergence.Time.Timestamp.Reader
import Convergence.Time.Timestamp.Printer
/-!
# Records as nodes

For each part of a record, `node` is the node that it is written as and `ofNode?` reads it back.
Values that are absent are left out; fields with a default value are always written.
-/

namespace Convergence

/-- A list as a sequence. -/
def listNode {α : Type} (write : α → Node) (l : List α) : Node := .seq (l.map write)

/-! ## Parts without fields -/

/-- The state that a node names. -/
def State.ofNode? (n : Node) : Option State := n.name?.bind State.ofName?

/-- The node of a state. -/
def State.node (s : State) : Node := .str s.name

/-- The action that a node names. -/
def ChangeAction.ofNode? (n : Node) : Option ChangeAction := n.name?.bind ChangeAction.ofName?

/-- The node of an action. -/
def ChangeAction.node (a : ChangeAction) : Node := .str a.name

/-- The version that a node holds. -/
def Version.ofNode? (n : Node) : Option Version :=
  (n.natBelow? UInt32.size).map UInt32.ofNat

/-- The node of a version. -/
def Version.node (v : Version) : Node := .nat v.toNat

/-- The point in time that a node describes. -/
def Timestamp.ofNode? (n : Node) : Option Timestamp := n.text?.bind Timestamp.read?

/-- The node of a point in time. -/
def Timestamp.node (t : Timestamp) : Node := .str t.text

/-- The texts under names that a node holds; of texts under one name the last counts. -/
def propertiesOfNode? : Node → Option (Dict String)
  | .map members =>
    (members.mapM fun (m : String × Node) => m.2.text?.map (m.1, ·)).map Dict.ofList
  | _ => none

/-- The node of texts under names. -/
def propertiesNode (d : Dict String) : Node := .map (d.entries.map fun (name, s) => (name, .str s))

/-! ## Steps and revisions -/

/-- The fields of a step. -/
def Step.fieldNames : List String := ["kind", "name", "connector", "properties"]

/-- The step that a node describes. -/
def Step.ofNode? (f : Format) (n : Node) : Option Step := do
  let m ← n.fields? f fieldNames
  let kind ← m.required "kind" Node.text?
  let name ← m.defaulted "name" "" Node.text?
  let connector ← m.optional "connector" Node.text?
  let properties ← m.defaulted "properties" .empty propertiesOfNode?
  pure { kind, name, connector, properties }

/-- The node of a step. -/
def Step.node (s : Step) : Node :=
  .map <| [("kind", .str s.kind), ("name", .str s.name)]
    ++ optionalMember "connector" .str s.connector
    ++ [("properties", propertiesNode s.properties)]

/-- The fields of what a revision does. -/
def Spec.fieldNames : List String := ["steps", "configuration"]

/-- What a revision does, as a node describes it. -/
def Spec.ofNode? (f : Format) (n : Node) : Option Spec := do
  let m ← n.fields? f fieldNames
  let steps ← m.defaulted "steps" [] (Node.list? (Step.ofNode? f))
  let configuration ← m.optional "configuration" Node.text?
  pure { steps, configuration }

/-- The members of what a revision does. -/
def Spec.members (s : Spec) : List (String × Node) :=
  ("steps", listNode Step.node s.steps) :: optionalMember "configuration" .str s.configuration

/-- The node of what a revision does. -/
def Spec.node (s : Spec) : Node := .map s.members

/-- The fields of a revision. -/
def Revision.fieldNames : List String := ["version", "current_state", "target_state", "spec"]

/-- The revision that a node describes. -/
def Revision.ofNode? (f : Format) (n : Node) : Option Revision := do
  let m ← n.fields? f fieldNames
  let version ← m.optional "version" Version.ofNode?
  let currentState ← m.required "current_state" State.ofNode?
  let targetState ← m.required "target_state" State.ofNode?
  let spec ← m.defaulted "spec" {} (Spec.ofNode? f)
  pure { version, currentState, targetState, spec }

/-- The node of a revision. -/
def Revision.node (r : Revision) : Node :=
  .map <| optionalMember "version" Version.node r.version
    ++ [("current_state", r.currentState.node), ("target_state", r.targetState.node),
        ("spec", r.spec.node)]

/-! ## Tokens, status updates and integrations -/

/-- The fields of a token. -/
def Token.fieldNames : List String := ["value", "expires_at"]

/-- The token that a node describes. -/
def Token.ofNode? (f : Format) (n : Node) : Option Token := do
  let m ← n.fields? f fieldNames
  let value ← m.required "value" Node.text?
  let expiresAt ← m.optional "expires_at" Timestamp.ofNode?
  pure { value, expiresAt }

/-- The node of a token. -/
def Token.node (t : Token) : Node :=
  .map <| ("value", .str t.value) :: optionalMember "expires_at" Timestamp.node t.expiresAt

/-- The fields of a status update. -/
def StatusUpdate.fieldNames : List String :=
  ["version", "state", "message", "steps_done", "git_repo", "promoted_revision", "failed"]

/-- The status update that a node describes. -/
def StatusUpdate.ofNode? (f : Format) (n : Node) : Option StatusUpdate := do
  let m ← n.fields? f fieldNames
  let version ← m.required "version" Version.ofNode?
  let state ← m.required "state" State.ofNode?
  let message ← m.optional "message" Node.text?
  let stepsDone ← m.defaulted "steps_done" [] (Node.list? Node.text?)
  let gitRepo ← m.optional "git_repo" Node.text?
  let promoted ← m.optional "promoted_revision" (Revision.ofNode? f)
  let failed ← m.defaulted "failed" false Node.bool?
  pure { version, state, message, stepsDone, gitRepo, promoted, failed }

/-- The node of a status update. -/
def StatusUpdate.node (u : StatusUpdate) : Node :=
  .map <| [("version", Version.node u.version), ("state", u.state.node)]
    ++ optionalMember "message" .str u.message
    ++ [("steps_done", listNode .str u.stepsDone)]
    ++ optionalMember "git_repo" .str u.gitRepo
    ++ optionalMember "promoted_revision" Revision.node u.promoted
    ++ (if u.failed then [("failed", .bool true)] else [])

/-- The fields of an integration. -/
def Integration.fieldNames : List String :=
  ["id", "name", "desired_state", "current_state", "status_message", "revisions", "draft_revision",
    "deployed_revision", "steps_done", "steps", "token", "git_repo", "last_updated", "created_at"]

/-- The integration that a node describes; without another time it is created `now`. -/
def Integration.ofNode? (f : Format) (now : Timestamp) (n : Node) : Option Integration := do
  let m ← n.fields? f fieldNames
  let id ← m.required "id" Node.text?
  let name ← m.required "name" Node.text?
  let desired ← m.optional "desired_state" State.ofNode?
  let current ← m.optional "current_state" State.ofNode?
  let statusMessage ← m.optional "status_message" Node.text?
  let revisions ← m.defaulted "revisions" [] (Node.list? (Revision.ofNode? f))
  let draft ← m.optional "draft_revision" (Revision.ofNode? f)
  let deployed ← m.optional "deployed_revision" Version.ofNode?
  let stepsDone ← m.defaulted "steps_done" [] (Node.list? Node.text?)
  let steps ← m.defaulted "steps" [] (Node.list? (Step.ofNode? f))
  let token ← m.optional "token" (Token.ofNode? f)
  let gitRepo ← m.optional "git_repo" Node.text?
  let lastUpdated ← m.optional "last_updated" Timestamp.ofNode?
  let createdAt ← m.defaulted "created_at" now Timestamp.ofNode?
  pure { id, name, desired, current, statusMessage, revisions, draft, deployed, stepsDone, steps,
         token, gitRepo, lastUpdated, createdAt }

/-- The node of an integration. -/
def Integration.node (i : Integration) : Node :=
  .map <| [("id", .str i.id), ("name", .str i.name)]
    ++ optionalMember "desired_state" State.node i.desired
    ++ optionalMember "current_state" State.node i.current
    ++ optionalMember "status_message" .str i.statusMessage
    ++ [("revisions", listNode Revision.node i.revisions)]
    ++ optionalMember "draft_revision" Revision.node i.draft
    ++ optionalMember "deployed_revision" Version.node i.deployed
    ++ [("steps_done", listNode .str i.stepsDone), ("steps", listNode Step.node i.steps)]
    ++ optionalMember "token" Token.node i.token
    ++ optionalMember "git_repo" .str i.gitRepo
    ++ optionalMember "last_updated" Timestamp.node i.lastUpdated
    ++ [("created_at", i.createdAt.node)]

/-- The node is null. -/
def Node.isNull : Node → Bool
  | .null => true
  | _ => false

/-- The integration with some of its members replaced by those of a map; a member that becomes null
is removed. -/
def Integration.patch? (i : Integration) (now : Timestamp) (changes : Node) : Option Integration :=
  match i.node, changes with
  | .map members, .map changes =>
    let kept := members.filter fun m => !changes.any (fun c => c.1 == m.1)
    ofNode? .json now (.map (kept ++ changes.filter fun c => !c.2.isNull))
  | _, _ => none

end Convergence
