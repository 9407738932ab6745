import Convergence.InPlace
import Convergence.Reconcile.Handler
/-!
# The registry of handlers

Each state has at most one handler.  `Registry.enrol` registers a handler for all of its states, in
place; `Registry.register` is the same for a caller who drops the registry if the handler is
refused.  `Registry.ofHandlers` registers handlers one after another and fails with the first that
cannot be registered.
-/

namespace Convergence

/-- The handlers of the states. -/
structure Registry where
  /-- The states that have a handler, the earliest registered first. -/
  claims : List (State × Handler) := []

namespace Registry

/-- The handler of a state. -/
def lookup? (r : Registry) (s : State) : Option Handler :=
  (r.claims.find? (fun c => c.1 == s)).map (·.2)

/-- How many states have a handler. -/
def size (r : Registry) : Nat := r.claims.length

/-- The first state of a list that has a handler, with that handler. -/
def firstClaimed? (r : Registry) (triggers : List State) : Option (State × Handler) :=
  triggers.findSome? fun s => (r.lookup? s).map (s, ·)

/-- The claims with one of a handler for a state: in place of the claim for that state, or last. -/
def insertClaim (s : State) (h : Handler) : List (State × Handler) → List (State × Handler)
  | [] => [(s, h)]
  | c :: rest => if c.1 = s then (s, h) :: rest else c :: insertClaim s h rest

/-- The registry with a handler for a state, whoever had it before. -/
def insert (r : Registry) (s : State) (h : Handler) : Registry := ⟨insertClaim s h r.claims⟩

/-- Registers a handler for each of its states, in place. -/
def enrol (h : Handler) : InPlace Registry ReconcileError Unit := do
  if h.triggers.isEmpty then throw (.noTriggers h.name)
  -- all states are looked at before the first of them is claimed
  if let some (s, existing) := (← get).firstClaimed? h.triggers then
    throw (.duplicateTrigger s existing.name h.name)
  for s in h.triggers do
    modify (·.insert s h)

/-- The registry with a handler registered for each of its states. -/
def register (r : Registry) (h : Handler) : Except ReconcileError Registry :=
  (enrol h).changed r

/-- Registers handlers one after another. -/
def ofHandlers (hs : List Handler) : Except ReconcileError Registry := hs.foldlM register {}

end Registry

end Convergence
