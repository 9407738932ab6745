import Convergence.Backend.SourceControl
import Convergence.Json.Printer
import Convergence.Reconcile.Error
import Convergence.Record.Codec
import Convergence.Yaml.Printer
/-!
# Generated projects

The files that are pushed to source control for a revision: a description for people, and the
revision as JSON and as YAML.
-/

namespace Convergence.Project

/-- What makes the files of a revision of an integration. -/
abbrev Generator := Integration → Revision → Except ReconcileError ProjectFiles

/-- The version as a node, null if there is none. -/
def versionNode : Option Version → Node
  | some v => Version.node v
  | none => .null

/-- The revision as it is described in the files. -/
def document (i : Integration) (r : Revision) : Node :=
  .map <| [("id", .str i.id), ("name", .str i.name), ("version", versionNode r.version)]
    ++ r.spec.members

/-- The line of a step. -/
def stepLine (s : Step) : String :=
  let line := "- " ++ s.kind ++ " `" ++ s.name ++ "`"
  match s.connector with
  | some connector => line ++ " via " ++ connector
  | none => line

/-- The description for people. -/
def readme (i : Integration) (r : Revision) : String :=
  let steps := r.spec.steps.map stepLine
  "# " ++ i.name ++ "\n\nGenerated project for integration `" ++ i.id ++ "`.\n\n## Steps\n\n"
    ++ (if steps.isEmpty then "(none)" else "\n".intercalate steps) ++ "\n"

/-- The files of a revision. -/
def files (i : Integration) (r : Revision) : ProjectFiles :=
  Dict.ofList [("README.md", readme i r), ("integration.json", Json.pretty (document i r)),
    ("integration.yml", Yaml.text (document i r))]

/-- The generator of the files above, which never fails. -/
def generator : Generator := fun i r => .ok (files i r)

end Convergence.Project
