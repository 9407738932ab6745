import Convergence.Backend.Gate
import Convergence.Dict
import Convergence.Record.Error
/-!
# Provisioning

A provisioner runs deployments in memory.  Each deployment is known by its name, runs one revision
at some scale, and has some of its replicas ready.  `create`, `scale`, `isScaled` and `webhookUrl`
are what handlers call; they can be made to fail once.
-/

namespace Convergence

/-- Why a call of the provisioner failed. -/
inductive ProvisionError where
  /-- There is no such deployment. -/
  | notFound (name : String)
  /-- Any other failure. -/
  | failed (operation reason : String)
deriving DecidableEq, Repr

namespace ProvisionError

/-- The name of the kind of error. -/
def kind : ProvisionError → String
  | .notFound _ => "NotFound"
  | .failed _ _ => "Failed"

/-- What went wrong, in words. -/
def message : ProvisionError → String
  | .notFound name => "deployment '" ++ name ++ "' not found"
  | .failed operation reason => "provisioning '" ++ operation ++ "' failed: " ++ reason

/-- The error is that there is no such deployment. -/
def isNotFound : ProvisionError → Bool
  | .notFound _ => true
  | .failed _ _ => false

end ProvisionError

/-- What to run, and at which scale. -/
structure Descriptor where
  /-- The name of the deployment. -/
  name : String
  revision : Version
  replicas : Nat := 1
  /-- The credential for the call. -/
  token : Option String := none
  /-- Where the build takes its sources from. -/
  gitRepository : Option String := none
  /-- What guards the webhook of the build. -/
  webhookSecret : Option String := none
  applicationProperties : Dict String := .empty
deriving DecidableEq, Repr

/-- A deployment. -/
structure Deployment where
  revision : Version
  replicas : Nat
  readyReplicas : Nat
  gitRepository : Option String := none
  webhookSecret : Option String := none
  applicationProperties : Dict String := .empty
deriving DecidableEq, Repr

namespace Deployment

/-- The deployment runs what the descriptor asks for, and every replica is ready. -/
def runs (m : Deployment) (d : Descriptor) : Bool :=
  m.revision == d.revision && m.replicas == d.replicas && m.readyReplicas == d.replicas

end Deployment

/-- The operations of a provisioner that handlers call. -/
inductive ProvisionCall where
  | create
  | scale
  | isScaled
  | webhookUrl
deriving DecidableEq, Repr

/-- Deployments in memory. -/
structure Provisioner where
  deployments : Dict Deployment := .empty
  gate : ProvisionCall → Gate ProvisionError := fun _ => {}
  /-- Replicas are ready as soon as they are asked for. -/
  autoReady : Bool := false
  /-- What webhook addresses start with. -/
  api : String := "https://provisioner.local"
  /-- The namespace in webhook addresses. -/
  space : String := "integrations"

namespace Provisioner

/-- One call of an operation: the error it fails with, if any. -/
def enter (p : Provisioner) (call : ProvisionCall) : Option ProvisionError × Provisioner :=
  let (fault, gate) := (p.gate call).enter
  (fault, { p with gate := fun c => if c = call then gate else p.gate c })

/-- Lets the next call of an operation fail. -/
def failNext (p : Provisioner) (call : ProvisionCall) (e : ProvisionError) : Provisioner :=
  { p with gate := fun c => if c = call then (p.gate c).failNext e else p.gate c }

/-- How often an operation was called. -/
def calls (p : Provisioner) (call : ProvisionCall) : Nat := (p.gate call).calls

/-- How many replicas are ready at once when so many are asked for. -/
def readyAtOnce (p : Provisioner) (replicas : Nat) : Nat := if p.autoReady then replicas else 0

/-- The deployment of a name. -/
def deployment? (p : Provisioner) (name : String) : Option Deployment := p.deployments.find? name

/-- Puts a deployment under a name. -/
def place (p : Provisioner) (name : String) (m : Deployment) : Provisioner :=
  { p with deployments := p.deployments.insert name m }

/-- Reports every replica of a deployment as ready; tells whether there is such a deployment. -/
def markReady (p : Provisioner) (name : String) : Bool × Provisioner :=
  match p.deployment? name with
  | some m => (true, p.place name { m with readyReplicas := m.replicas })
  | none => (false, p)

/-- The deployment that is made from a descriptor. -/
def fresh (p : Provisioner) (d : Descriptor) : Deployment :=
  { revision := d.revision
    replicas := d.replicas
    readyReplicas := p.readyAtOnce d.replicas
    gitRepository := d.gitRepository
    webhookSecret := d.webhookSecret
    applicationProperties := d.applicationProperties }

/-- Makes a deployment, in place of the one of its name. -/
def create (p : Provisioner) (d : Descriptor) : Except ProvisionError Unit × Provisioner :=
  match p.enter .create with
  | (some e, p) => (.error e, p)
  | (none, p) => (.ok (), p.place d.name (p.fresh d))

/-- Changes the scale of a deployment; one that runs another revision is left alone. -/
def scale (p : Provisioner) (d : Descriptor) : Except ProvisionError Unit × Provisioner :=
  match p.enter .scale with
  | (some e, p) => (.error e, p)
  | (none, p) =>
    match p.deployment? d.name with
    | none => (.error (.notFound d.name), p)
    | some m =>
      if m.revision = d.revision then
        (.ok (), p.place d.name
          { m with replicas := d.replicas, readyReplicas := p.readyAtOnce d.replicas })
      else (.ok (), p)

/-- Tells whether a deployment runs what the descriptor asks for. -/
def isScaled (p : Provisioner) (d : Descriptor) : Except ProvisionError Bool × Provisioner :=
  match p.enter .isScaled with
  | (some e, p) => (.error e, p)
  | (none, p) => (.ok ((p.deployment? d.name).any (·.runs d)), p)

/-- The address of the webhook of a deployment with a secret. -/
def webhookAddress (p : Provisioner) (name secret : String) : String :=
  p.api ++ "/namespaces/" ++ p.space ++ "/buildconfigs/" ++ name ++ "/webhooks/" ++ secret
    ++ "/github"

/-- Asks for the address that source control calls when a project changes. -/
def webhookUrl (p : Provisioner) (d : Descriptor) (secret : String) :
    Except ProvisionError String × Provisioner :=
  match p.enter .webhookUrl with
  | (some e, p) => (.error e, p)
  | (none, p) => (.ok (p.webhookAddress d.name secret), p)

end Provisioner

end Convergence
