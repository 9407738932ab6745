import Convergence.Dict
import Convergence.Lifecycle
/-!
# Revisions

A revision is a snapshot of what an integration does: its steps, in order, and a free-form
configuration.  A published revision has a version, and once it has been active it is never changed
again.
-/

namespace Convergence

/-- One step of what an integration does. -/
structure Step where
  /-- What the step is, such as `endpoint` or `log`. -/
  kind : String := ""
  /-- A name for people. -/
  name : String := ""
  /-- What an endpoint step talks to. -/
  connector : Option String := none
  properties : Dict String := .empty
deriving DecidableEq, Repr

namespace Step

/-- The kind of the steps that talk to a connector. -/
def endpointKind : String := "endpoint"

/-- An endpoint step for a connector. -/
def endpoint (name connector : String) : Step :=
  { kind := endpointKind, name := name, connector := some connector }

/-- The step with one property set. -/
def withProperty (s : Step) (key value : String) : Step :=
  { s with properties := s.properties.insert key value }

/-- The step talks to a connector. -/
def isEndpoint (s : Step) : Bool := s.kind == endpointKind

end Step

/-- What a revision does. -/
structure Spec where
  /-- In the order in which they run. -/
  steps : List Step := []
  configuration : Option String := none
deriving DecidableEq, Repr

/-- A snapshot of an integration. -/
structure Revision where
  /-- Given at publication if not before. -/
  version : Option Version := none
  /-- The state it has reached. -/
  currentState : State := .draft
  /-- The state it is meant to reach. -/
  targetState : State := .draft
  spec : Spec := {}
deriving DecidableEq, Repr

namespace Revision

/-- A draft that runs the steps. -/
def ofSteps (steps : List Step) : Revision := { spec := { steps := steps } }

/-- The revision can no longer be changed: it is active. -/
def isImmutable (r : Revision) : Bool := r.currentState == .active

end Revision

end Convergence
