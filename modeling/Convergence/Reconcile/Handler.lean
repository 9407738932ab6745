import Convergence.Reconcile.Error
import Convergence.Record.Integration
/-!
# Handlers

A handler brings integrations to the states it is meant for.  It is called with a record and a
revision, acts on the backends, and says what it observed; it never writes the record.  A call may
take time, so it has a beginning and an end.
-/

namespace Convergence

/-- A call of a handler that follows a script, as it is noted in the journal. -/
structure JournalEntry where
  /-- Which script was followed. -/
  script : Nat
  handler : String
  /-- Milliseconds since the start. -/
  moment : Nat
  id : IntegrationId
  desired : Option State
  current : Option State
  version : Option Version
deriving DecidableEq, Repr

/-- What handlers act on. -/
structure Environment where
  provisioner : Provisioner := {}
  sourceControl : SourceControl := {}
  /-- The secrets that are made up, in order. -/
  secretAt : Nat → String := fun _ => ""
  /-- How many secrets were made up. -/
  minted : Nat := 0
  /-- The calls of handlers that follow a script, oldest first. -/
  journal : List JournalEntry := []

namespace Environment

/-- Makes up a secret. -/
def mint (e : Environment) : String × Environment :=
  (e.secretAt e.minted, { e with minted := e.minted + 1 })

end Environment

/-- What a handler is called with. -/
structure Call where
  integration : Integration
  revision : Revision
  /-- What the clock shows. -/
  clock : Timestamp
  /-- Milliseconds since the start. -/
  moment : Nat := 0

/-- How a call ends. -/
inductive Outcome where
  /-- The handler has something to report. -/
  | report (u : StatusUpdate)
  /-- There is nothing to report. -/
  | nothing
  | failed (e : ReconcileError)
  /-- The handler breaks down, and its caller with it. -/
  | crashed
deriving DecidableEq, Repr

/-- A call that has begun. -/
structure Run where
  /-- Milliseconds until it ends. -/
  wait : Nat := 0
  /-- What it does at its end. -/
  finish : Environment → Outcome × Environment

/-- A handler. -/
structure Handler where
  name : String
  /-- The states that it brings integrations to. -/
  triggers : List State
  /-- The revision that it acts on. -/
  select : Integration → Revision := Integration.targetRevision
  /-- Begins a call. -/
  call : Call → Environment → Run × Environment

namespace Handler

/-- The handler is meant for the state. -/
def handles (h : Handler) (s : State) : Bool := h.triggers.contains s

/-- A call from beginning to end. -/
def execute (h : Handler) (c : Call) (e : Environment) : Outcome × Environment :=
  let (run, e) := h.call c e
  run.finish e

end Handler

/-! ## Handlers that follow a script -/

/-- One call of a script: how long it takes and how it ends. -/
structure Scene where
  wait : Nat := 0
  outcome : Outcome

namespace Handler

/-- The scene of a call, given the number of calls before it; the last scene is repeated. -/
def sceneAt (scenes : List Scene) (n : Nat) : Scene :=
  (scenes[n]? <|> scenes.getLast?).getD { outcome := .nothing }

/-- The handler that plays the scenes of a script one after another and keeps a journal. -/
def scripted (script : Nat) (name : String) (triggers : List State) (scenes : List Scene) :
    Handler where
  name := name
  triggers := triggers
  call := fun c e =>
    let scene := sceneAt scenes (e.journal.countP (fun entry => entry.script == script))
    let entry : JournalEntry :=
      { script := script
        handler := name
        moment := c.moment
        id := c.integration.id
        desired := c.integration.desired
        current := c.integration.current
        version := c.revision.version }
    ({ wait := scene.wait, finish := fun e => (scene.outcome, e) },
      { e with journal := e.journal ++ [entry] })

end Handler

end Convergence
