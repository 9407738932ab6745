import Convergence.Config.Controller
import Convergence.Config.File
import Convergence.Record.Codec
import Convergence.Toml.Printer
/-!
# The configuration of the application

The configuration of the controller and of the backends, read from a file and overridden by the
environment.  `AppConfig.toml` writes the configuration in effect.
-/

namespace Convergence

/-- What the backends can be told. -/
structure BackendConfig where
  /-- What webhook addresses start with. -/
  provisionerApi : String := "https://provisioner.local"
  /-- The namespace of the deployments. -/
  space : String := "integrations"
  /-- What clone addresses start with. -/
  gitBaseUrl : String := "https://git.local"
  /-- Deployments are ready as soon as they are made. -/
  autoReady : Bool := true
deriving DecidableEq, Repr

namespace BackendConfig

/-- The fields of the configuration. -/
def fieldNames : List String := ["provisioner_api", "namespace", "git_base_url", "auto_ready"]

/-- The members of the configuration. -/
def settings (c : BackendConfig) : List (String × Node) :=
  [("provisioner_api", .str c.provisionerApi), ("namespace", .str c.space),
    ("git_base_url", .str c.gitBaseUrl), ("auto_ready", .bool c.autoReady)]

/-- The node of the configuration. -/
def node (c : BackendConfig) : Node := .map c.settings

/-- The configuration that a node describes. -/
def ofNode? (f : Format) (n : Node) : Option BackendConfig := do
  let m ← n.fields? f fieldNames
  let d : BackendConfig := {}
  let provisionerApi ← m.defaulted "provisioner_api" d.provisionerApi Node.text?
  let space ← m.defaulted "namespace" d.space Node.text?
  let gitBaseUrl ← m.defaulted "git_base_url" d.gitBaseUrl Node.text?
  let autoReady ← m.defaulted "auto_ready" d.autoReady Node.bool?
  pure { provisionerApi, space, gitBaseUrl, autoReady }

end BackendConfig

/-- What the application can be told. -/
structure AppConfig where
  controller : ControllerConfig := {}
  backends : BackendConfig := {}
deriving DecidableEq, Repr

/-- Why the application cannot do what it is asked. -/
inductive AppError where
  | readConfig (path : String) (fault : FileFault)
  | parseConfig (path detail : String)
  | invalidOverride (e : ReconcileError)
  | invalidController (e : ReconcileError)
  | readSeeds (path : String) (fault : FileFault)
  | parseSeeds (path detail : String)
  | registerHandlers (e : ReconcileError)
  | seed (e : StoreError)
  | startController (e : ReconcileError)
  /-- The configuration of a run has one of the faults above. -/
  | load (e : AppError)
deriving DecidableEq, Repr

namespace AppError

/-- What went wrong, the widest view first and its causes behind it. -/
def chain : AppError → List String
  | .readConfig path fault => ["Failed to read config " ++ path, fault.message]
  | .parseConfig path detail => ["Failed to parse config " ++ path, detail]
  | .invalidOverride e => ["Invalid environment override", e.message]
  | .invalidController e => ["Invalid controller configuration", e.message]
  | .readSeeds path fault => ["Failed to read seed file " ++ path, fault.message]
  | .parseSeeds path detail => ["Failed to parse seed file " ++ path, detail]
  | .registerHandlers e => ["Failed to register status handlers", e.message]
  | .seed e => ["Failed to seed integration", e.message]
  | .startController e => ["Failed to start controller", e.message]
  | .load e => "Configuration could not be loaded" :: e.chain

/-- What went wrong, on one line. -/
def message (e : AppError) : String := ": ".intercalate e.chain

/-- The causes on lines of their own, numbered from the given number. -/
def numbered : Nat → List String → String
  | _, [] => ""
  | n, s :: rest => "\n    " ++ Decimal.text n ++ ": " ++ s ++ numbered (n + 1) rest

/-- What went wrong, with the causes on lines of their own. -/
def report (e : AppError) : String :=
  match e.chain with
  | [] => "Error: "
  | [s] => "Error: " ++ s
  | [s, cause] => "Error: " ++ s ++ "\n\nCaused by:\n    " ++ cause
  | s :: causes => "Error: " ++ s ++ "\n\nCaused by:" ++ numbered 0 causes

end AppError

namespace AppConfig

/-- The fields of the configuration. -/
def fieldNames : List String := ["controller", "backends"]

/-- The node of the configuration. -/
def node (c : AppConfig) : Node :=
  .map [("controller", c.controller.node), ("backends", c.backends.node)]

/-- The configuration that a node describes. -/
def ofNode? (f : Format) (n : Node) : Option AppConfig := do
  let m ← n.fields? f fieldNames
  let controller ← m.defaulted "controller" {} (ControllerConfig.ofNode? f.inner)
  let backends ← m.defaulted "backends" {} (BackendConfig.ofNode? f)
  pure { controller, backends }

/-- The members of a policy. -/
def policyMembers : Node → List (String × Node)
  | .map members => members
  | _ => []

/-- The tables of the configuration. -/
def tables (c : AppConfig) : List Toml.Table :=
  [⟨"controller", c.controller.settings⟩,
    ⟨"controller.retry", policyMembers c.controller.retry.node⟩,
    ⟨"backends", c.backends.settings⟩]

/-- The TOML text of the configuration. -/
def toml (c : AppConfig) : String := Toml.text c.tables

/-- The configuration in a file. -/
def ofFile (file : File) : Except AppError AppConfig :=
  match file.content with
  | .error fault => .error (.readConfig file.path fault)
  | .ok text =>
    match File.decode? file.path text ofNode? with
    | some c => .ok c
    | none => .error (.parseConfig file.path "no text of a configuration")

/-- The configuration in effect: that of the file, or the default one, with the overrides of the
environment. -/
def load (file : Option File) (lookup : String → Option String) : Except AppError AppConfig := do
  let config ←
    match file with
    | some file => ofFile file
    | none => .ok {}
  let controller ← (config.controller.withOverrides lookup).mapError AppError.invalidOverride
  controller.validate.mapError AppError.invalidController
  pure { config with controller }

end AppConfig

/-- The configuration of a controller in a file. -/
def ControllerConfig.ofFile (file : File) : Except ReconcileError ControllerConfig :=
  match file.content with
  | .error fault => .error (.configRead file.path fault.message)
  | .ok text =>
    match File.decode? file.path text ofNode? with
    | none => .error (.malformedConfig "no text of a configuration")
    | some c => c.validate.map fun _ => c

end Convergence
