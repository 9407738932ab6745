import Convergence.Project
import Convergence.Reconcile.Handler
import Convergence.Reconcile.SetupSteps
import Convergence.Slug
/-!
# Activation

The handler that brings integrations to life: it pushes the generated project, provisions a
deployment, and reports the integration as active once the deployment is scaled.  The two setup
steps are noted on the record, so that a later attempt goes on where an earlier one stopped.
-/

namespace Convergence

/-- The name of the repository and the deployment of an integration. -/
def resourceName (i : Integration) : String :=
  let name := Slug.ofText i.name
  if name.isEmpty then Slug.ofText i.id else name

/-- The properties of one step under the name of its connector. -/
def stepProperties (s : Step) : List (String × String) :=
  match s.connector with
  | some connector =>
    if s.isEndpoint then
      s.properties.entries.map fun (key, value) => (connector ++ "." ++ key, value)
    else []
  | none => []

/-- The properties of all endpoint steps; of properties of one name the last counts. -/
def applicationProperties (r : Revision) : Dict String :=
  Dict.ofList (r.spec.steps.flatMap stepProperties)

namespace Activation

/-- How far an attempt has come. -/
structure Progress where
  environment : Environment
  steps : SetupSteps
  /-- Where the project can be cloned from, if this attempt pushed it. -/
  gitRepo : Option String := none

/-- The message of the commits. -/
def commitMessage : String := "Updated"

/-- The first setup step: generates the project and pushes it. -/
def setUpRepository (generate : Project.Generator) (c : Call) (d : Descriptor) (p : Progress) :
    Except ReconcileError Unit × Progress :=
  if p.steps.isDone SetupSteps.sourceRepo then (.ok (), p)
  else
    match generate c.integration c.revision with
    | .error e => (.error e, p)
    | .ok files =>
      match p.environment.provisioner.webhookUrl d (d.webhookSecret.getD "") with
      | (.error e, provisioner) =>
        (.error (.provisioning e), { p with environment := { p.environment with provisioner } })
      | (.ok webhook, provisioner) =>
        match p.environment.sourceControl.push d.name commitMessage files webhook with
        | (.error e, sourceControl) =>
          (.error (.sourceControl e),
            { p with environment := { p.environment with provisioner, sourceControl } })
        | (.ok url, sourceControl) =>
          (.ok (),
            { environment := { p.environment with provisioner, sourceControl }
              steps := p.steps.mark SetupSteps.sourceRepo
              gitRepo := some url })

/-- Where the build takes its sources from: what was just pushed, or what was pushed earlier. -/
def sources (d : Descriptor) (p : Progress) : Except SourceControlError String :=
  match p.gitRepo with
  | some url => .ok url
  | none => p.environment.sourceControl.cloneUrl d.name

/-- The second setup step: makes the deployment. -/
def setUpDeployment (d : Descriptor) (p : Progress) : Except ReconcileError Unit × Progress :=
  if p.steps.isDone SetupSteps.provisioning then (.ok (), p)
  else
    match sources d p with
    | .error e => (.error (.sourceControl e), p)
    | .ok url =>
      match p.environment.provisioner.create { d with gitRepository := some url } with
      | (.error e, provisioner) =>
        (.error (.provisioning e), { p with environment := { p.environment with provisioner } })
      | (.ok (), provisioner) =>
        (.ok (),
          { p with
            environment := { p.environment with provisioner }
            steps := p.steps.mark SetupSteps.provisioning })

/-- The setup steps that are not done, and then the question whether the deployment is scaled. -/
def converge (generate : Project.Generator) (c : Call) (d : Descriptor) (p : Progress) :
    Except ReconcileError Bool × Progress :=
  match setUpRepository generate c d p with
  | (.error e, p) => (.error e, p)
  | (.ok (), p) =>
    match setUpDeployment d p with
    | (.error e, p) => (.error e, p)
    | (.ok (), p) =>
      match p.environment.provisioner.isScaled d with
      | (.error e, provisioner) =>
        (.error (.provisioning e), { p with environment := { p.environment with provisioner } })
      | (.ok scaled, provisioner) =>
        (.ok scaled, { p with environment := { p.environment with provisioner } })

/-- What to deploy for a call. -/
def descriptor (c : Call) (token secret : String) : Descriptor :=
  { name := resourceName c.integration
    revision := c.integration.versionFor c.revision
    token := some token
    webhookSecret := some secret
    applicationProperties := applicationProperties c.revision }

/-- What is reported of an attempt. -/
def report (c : Call) (result : Except ReconcileError Bool) (p : Progress) : StatusUpdate :=
  let version := c.integration.versionFor c.revision
  match result with
  | .ok true =>
    { version
      state := .active
      promoted := some { c.revision with version := some version, targetState := .active }
      gitRepo := p.gitRepo }
  | .ok false => { version, state := .pending, stepsDone := p.steps.done, gitRepo := p.gitRepo }
  | .error e =>
    { version
      state := .pending
      message := some e.message
      stepsDone := p.steps.done
      failed := true
      gitRepo := p.gitRepo }

/-- What is reported if there is no usable token: nothing has changed. -/
def withoutToken (c : Call) (message : String) : StatusUpdate :=
  { version := c.integration.versionFor c.revision
    state := c.revision.currentState
    message := some message
    stepsDone := c.integration.stepsDone }

/-- One attempt. -/
def attempt (generate : Project.Generator) (c : Call) (e : Environment) : Outcome × Environment :=
  match c.integration.token with
  | none => (.report (withoutToken c "No token present"), e)
  | some token =>
    if token.isExpired c.clock then (.report (withoutToken c "Token is expired"), e)
    else
      let (secret, e) := e.mint
      let d := descriptor c token.value secret
      let p : Progress := { environment := e, steps := .ofList c.integration.stepsDone }
      let (result, p) := converge generate c d p
      (.report (report c result p), p.environment)

end Activation

/-- The handler that activates integrations, with a generator of projects. -/
def Handler.activate (generate : Project.Generator) : Handler where
  name := "activate"
  triggers := [.active]
  call := fun c e => ({ finish := Activation.attempt generate c }, e)

end Convergence
