import Convergence.Reconcile.Activation
/-!
# Deactivation

The handler that stops integrations: it scales the deployment to zero, and reports the integration
as undeployed once nothing runs.  A deployment that does not exist is stopped already.
-/

namespace Convergence

namespace Deactivation

/-- The deployed revision, or the newest published one if none is deployed. -/
def select (i : Integration) : Revision :=
  (i.activeRevision? <|> i.revisions.getLast?).getD i.targetRevision

/-- What to scale to zero. -/
def descriptor (c : Call) (version : Version) : Descriptor :=
  { name := resourceName c.integration
    revision := version
    replicas := 0
    token := c.integration.token.map (·.value) }

/-- One attempt. -/
def attempt (c : Call) (e : Environment) : Outcome × Environment :=
  match c.revision.version with
  | none => (.failed (.missingVersion c.integration.id), e)
  | some version =>
    let d := descriptor c version
    match e.provisioner.scale d with
    | (.error err, provisioner) =>
      let e := { e with provisioner }
      if err.isNotFound then (.report { version, state := .undeployed }, e)
      else (.failed (.provisioning err), e)
    | (.ok (), provisioner) =>
      match provisioner.isScaled d with
      | (.error err, provisioner) => (.failed (.provisioning err), { e with provisioner })
      | (.ok scaled, provisioner) =>
        (.report { version, state := if scaled then .undeployed else .pending },
          { e with provisioner })

end Deactivation

/-- The handler that stops integrations. -/
def Handler.deactivate : Handler where
  name := "deactivate"
  triggers := [.inactive, .draft]
  select := Deactivation.select
  call := fun c e => ({ finish := Deactivation.attempt c }, e)

end Convergence
