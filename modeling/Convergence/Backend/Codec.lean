import Convergence.Backend.Provisioner
import Convergence.Backend.SourceControl
import Convergence.Record.Codec
/-!
# Backends as nodes

What is deployed and what is stored in repositories, as nodes to show; descriptors as nodes to read.
-/

namespace Convergence

/-- The node of a value that may be missing. -/
def orNull {α : Type} (write : α → Node) : Option α → Node
  | some a => write a
  | none => .null

/-- The fields of a descriptor. -/
def Descriptor.fieldNames : List String :=
  ["name", "revision", "replicas", "token", "git_repository", "webhook_secret",
    "application_properties"]

/-- The descriptor that a node describes. -/
def Descriptor.ofNode? (f : Format) (n : Node) : Option Descriptor := do
  let m ← n.fields? f fieldNames
  let name ← m.required "name" Node.text?
  let revision ← m.required "revision" Version.ofNode?
  let replicas ← m.defaulted "replicas" 1 (Node.natBelow? UInt32.size)
  let token ← m.optional "token" Node.text?
  let gitRepository ← m.optional "git_repository" Node.text?
  let webhookSecret ← m.optional "webhook_secret" Node.text?
  let applicationProperties ← m.defaulted "application_properties" .empty propertiesOfNode?
  pure { name, revision, replicas, token, gitRepository, webhookSecret, applicationProperties }

/-- The node of a deployment. -/
def Deployment.node (m : Deployment) : Node :=
  .map [("revision", Version.node m.revision), ("replicas", .nat m.replicas),
    ("ready_replicas", .nat m.readyReplicas), ("git_repository", orNull .str m.gitRepository),
    ("webhook_secret", orNull .str m.webhookSecret),
    ("application_properties", propertiesNode m.applicationProperties)]

/-- The node of files: pairs of name and content. -/
def filesNode (files : ProjectFiles) : Node :=
  .seq (files.entries.map fun (name, content) => .seq [.str name, .str content])

/-- The node of a repository. -/
def Repository.node (r : Repository) : Node :=
  .map [("files", filesNode r.files), ("commits", listNode .str r.commits),
    ("webhook_url", orNull .str r.webhookUrl)]

end Convergence
