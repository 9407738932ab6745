import Convergence.Backend.Codec
import Convergence.Reconcile.Handler
/-!
# Scripts as nodes

The scenes of a handler that follows a script, and the errors that they may end with, as nodes to
read.
-/

namespace Convergence

/-- The text under a name of a map. -/
def Node.textAt? (n : Node) (name : String) : Option String :=
  match n with
  | .map members => (Node.member? members name).bind text?
  | _ => none

/-- The node under a name of a map, if it is there and not null. -/
def Node.at? (n : Node) (name : String) : Option Node :=
  match n with
  | .map members =>
    match Node.member? members name with
    | some .null => none
    | m => m
  | _ => none

/-- The error that a node describes. -/
def RecordError.ofNode? (n : Node) : Option RecordError := do
  let kind ← n.textAt? "kind"
  if kind = "ImmutableRevision" then
    (n.at? "version").bind Version.ofNode? |>.map .immutableRevision
  else if kind = "DuplicateRevision" then
    (n.at? "version").bind Version.ofNode? |>.map .duplicateRevision
  else if kind = "UnknownState" then (n.textAt? "name").map .unknownState
  else if kind = "UnknownKind" then (n.textAt? "name").map .unknownKind
  else if kind = "InvalidEvent" then (n.textAt? "reason").map .invalidEvent
  else none

/-- The error that a node describes. -/
def StoreError.ofNode? (n : Node) : Option StoreError := do
  let kind ← n.textAt? "kind"
  if kind = "NotFound" then (n.textAt? "id").map .notFound
  else if kind = "AlreadyExists" then (n.textAt? "id").map .alreadyExists
  else if kind = "ChannelClosed" then (n.textAt? "name").map .channelClosed
  else if kind = "OperationFailed" then
    pure (.operationFailed (← n.textAt? "operation") (← n.textAt? "reason"))
  else none

/-- The error that a node describes. -/
def ProvisionError.ofNode? (n : Node) : Option ProvisionError := do
  let kind ← n.textAt? "kind"
  if kind = "NotFound" then (n.textAt? "name").map .notFound
  else if kind = "Failed" then pure (.failed (← n.textAt? "operation") (← n.textAt? "reason"))
  else none

/-- The error that a node describes. -/
def SourceControlError.ofNode? (n : Node) : Option SourceControlError := do
  let kind ← n.textAt? "kind"
  if kind = "RepositoryNotFound" then (n.textAt? "repo").map .repositoryNotFound
  else if kind = "Failed" then pure (.failed (← n.textAt? "operation") (← n.textAt? "reason"))
  else none

/-- The error that a node describes. -/
def ReconcileError.ofNode? (n : Node) : Option ReconcileError := do
  let kind ← n.textAt? "kind"
  if kind = "DuplicateTrigger" then
    pure (.duplicateTrigger (← (n.at? "state").bind State.ofNode?) (← n.textAt? "existing")
      (← n.textAt? "duplicate"))
  else if kind = "NoTriggers" then (n.textAt? "handler").map .noTriggers
  else if kind = "MissingVersion" then (n.textAt? "integration").map .missingVersion
  else if kind = "HandlerFailed" then
    pure (.handlerFailed (← n.textAt? "handler") (← n.textAt? "reason"))
  else if kind = "ProjectGeneration" then (n.textAt? "reason").map .projectGeneration
  else if kind = "ControllerStopped" then pure .controllerStopped
  else if kind = "InvalidConfig" then (n.textAt? "reason").map .invalidConfig
  else if kind = "ConfigRead" then pure (.configRead (← n.textAt? "path") (← n.textAt? "reason"))
  else if kind = "Provisioning" then ((n.at? "inner").bind ProvisionError.ofNode?).map .provisioning
  else if kind = "SourceControl" then
    ((n.at? "inner").bind SourceControlError.ofNode?).map .sourceControl
  else if kind = "Store" then ((n.at? "inner").bind StoreError.ofNode?).map .store
  else if kind = "Model" then ((n.at? "inner").bind RecordError.ofNode?).map .record
  else none

/-- The scene that a node describes: an error, a breakdown, an update, or nothing to report. -/
def Scene.ofNode? (n : Node) : Option Scene := do
  let wait := ((n.at? "delay_ms").bind (Node.natBelow? UInt64.size)).getD 0
  match n.at? "error", n.at? "panic", n.at? "update" with
  | some e, _, _ => pure { wait, outcome := .failed (← ReconcileError.ofNode? e) }
  | _, some _, _ => pure { wait, outcome := .crashed }
  | _, _, some u => pure { wait, outcome := .report (← StatusUpdate.ofNode? .json u) }
  | _, _, _ => pure { wait, outcome := .nothing }

/-- The node of an entry of the journal. -/
def JournalEntry.node (e : JournalEntry) : Node :=
  .map [("t", .nat e.moment), ("handler", .str e.handler), ("id", .str e.id),
    ("desired", orNull State.node e.desired), ("current", orNull State.node e.current),
    ("revision", orNull Version.node e.version)]

end Convergence
