import Convergence.InPlace
import Convergence.Record.Revision
import Convergence.Time.Timestamp
/-!
# Integration records

The record of an integration: who it is, what state is wanted and observed, and which revisions it
has.  `Edit.publish` and `Edit.promote` add to the history of revisions, and `Edit.applyUpdate`
takes over what a handler reports.  They change the record in place; `publish`, `promote` and
`applyUpdate` are the same for a caller who drops the record if it is refused.
-/

namespace Convergence

/-- Identity of an integration in the store. -/
abbrev IntegrationId := String

/-- The credential that an integration is deployed with. -/
structure Token where
  value : String
  /-- When the token is no longer accepted, if that is known. -/
  expiresAt : Option Timestamp := none
deriving DecidableEq, Repr

/-- The token is no longer accepted at this time. -/
def Token.isExpired (t : Token) (now : Timestamp) : Bool := t.expiresAt.any (·.atOrBefore now)

/-- What a handler reports after acting on an integration. -/
structure StatusUpdate where
  /-- The version that the handler acted on. -/
  version : Version
  /-- The state that it observed. -/
  state : State
  message : Option String := none
  /-- The setup steps that are finished, in order. -/
  stepsDone : List String := []
  /-- Where the generated project can be cloned from. -/
  gitRepo : Option String := none
  /-- The revision that is now the deployed one. -/
  promoted : Option Revision := none
  /-- The attempt counts as a failure. -/
  failed : Bool := false
deriving DecidableEq, Repr

/-- The record of an integration. -/
structure Integration where
  id : IntegrationId
  /-- A name for people; deployments and repositories are named after it. -/
  name : String
  /-- What the operator wants. -/
  desired : Option State := none
  /-- What was last observed. -/
  current : Option State := none
  statusMessage : Option String := none
  /-- The published revisions, oldest first. -/
  revisions : List Revision := []
  /-- The revision being edited. -/
  draft : Option Revision := none
  /-- The version of the deployed revision. -/
  deployed : Option Version := none
  /-- The setup steps finished in the running attempt. -/
  stepsDone : List String := []
  /-- The steps to run while there is no revision. -/
  steps : List Step := []
  token : Option Token := none
  /-- Where the generated project can be cloned from. -/
  gitRepo : Option String := none
  lastUpdated : Option Timestamp := none
  createdAt : Timestamp
deriving DecidableEq, Repr

namespace Integration

/-! ## Questions -/

/-- The observed state fulfils the wanted one; if one of them is missing, both are. -/
def isConverged (i : Integration) : Bool :=
  match i.current, i.desired with
  | some current, some desired => current.satisfies desired
  | none, none => true
  | _, _ => false

/-- The first published revision of a version. -/
def revision? (i : Integration) (version : Version) : Option Revision :=
  i.revisions.find? (fun r => r.version == some version)

/-- The deployed revision. -/
def activeRevision? (i : Integration) : Option Revision := i.deployed.bind i.revision?

/-- The version of a new revision: one more than the highest, as long as there is a higher one. -/
def nextVersion (i : Integration) : Version :=
  match (i.revisions.filterMap (·.version)).max? with
  | none => 1
  | some v => if v.toNat + 1 < UInt32.size then v + 1 else v

/-- The version of a revision, or the next one if it has none. -/
def versionFor (i : Integration) (r : Revision) : Version := r.version.getD i.nextVersion

/-- The revision to act on: the draft, else the deployed one, else the newest published one, else
one made of the integration's own steps. -/
def targetRevision (i : Integration) : Revision :=
  (i.draft <|> i.activeRevision? <|> i.revisions.getLast?).getD (.ofSteps i.steps)

/-! ## Changes -/

/-- A change to a record in place. -/
abbrev Edit (α : Type) := InPlace Integration RecordError α

/-- Puts a revision in place of the first one of a version. -/
def replaceVersion (version : Version) (replacement : Revision) : List Revision → List Revision
  | [] => []
  | r :: rest =>
    if r.version = some version then replacement :: rest
    else r :: replaceVersion version replacement rest

namespace Edit

/-- Publishes a revision under its version or the next one. -/
def publish (r : Revision) : Edit Version := do
  let version := (← get).versionFor r
  if ((← get).revision? version).isSome then throw (.duplicateRevision version)
  modify fun i => { i with revisions := i.revisions ++ [{ r with version := some version }] }
  return version

/-- Takes an active revision into the history.  A revision of the same version that is active stays
as it is, and must run the same; one that is not active is replaced. -/
def enter (version : Version) (promoted : Revision) : Edit Unit := do
  match (← get).revision? version with
  | some existing =>
    if existing.isImmutable then
      if existing.spec ≠ promoted.spec then throw (.immutableRevision version)
    else
      modify fun i => { i with revisions := replaceVersion version promoted i.revisions }
  | none => modify fun i => { i with revisions := i.revisions ++ [promoted] }

/-- Makes a revision the deployed and active one.  There is no draft afterwards. -/
def promote (r : Revision) : Edit Version := do
  let version := (← get).versionFor r
  enter version { r with version := some version, currentState := .active }
  modify fun i => { i with deployed := some version }
  modify fun i => { i with draft := none }
  return version

/-- Takes over what a handler reports. -/
def applyUpdate (u : StatusUpdate) (now : Timestamp) : Edit Unit := do
  -- only the promotion can be refused, so everything else is written after it
  if let some r := u.promoted then
    let _ ← promote r
  if u.gitRepo.isSome then
    modify fun i => { i with gitRepo := u.gitRepo }
  modify fun i => { i with current := some u.state }
  modify fun i => { i with statusMessage := u.message }
  modify fun i => { i with stepsDone := u.stepsDone }
  modify fun i => { i with lastUpdated := some now }

end Edit

/-- The record with a revision published, and the version of that. -/
def publish (i : Integration) (r : Revision) : Except RecordError (Integration × Version) :=
  (Edit.publish r).result i

/-- The record with a revision promoted, and the version of that. -/
def promote (i : Integration) (r : Revision) : Except RecordError (Integration × Version) :=
  (Edit.promote r).result i

/-- The record that has taken over what a handler reports. -/
def applyUpdate (i : Integration) (u : StatusUpdate) (now : Timestamp) :
    Except RecordError Integration :=
  (Edit.applyUpdate u now).changed i

/-- Notes that an attempt went wrong; the observed state stays. -/
def recordFailure (i : Integration) (message : String) (now : Timestamp) : Integration :=
  { i with statusMessage := some message, lastUpdated := some now }

end Integration

end Convergence
