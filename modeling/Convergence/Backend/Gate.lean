/-!
# Gates

Every call of an operation of a backend passes through the gate of that operation.  The gate counts
the calls, and can hold an error for the next one.
-/

namespace Convergence

/-- The calls of one operation so far, and what the next call fails with. -/
structure Gate (ε : Type) where
  calls : Nat := 0
  /-- The error that the next call fails with. -/
  fault : Option ε := none
deriving DecidableEq, Repr

namespace Gate

variable {ε : Type}

/-- One call: the error it fails with, if any, and the gate afterwards. -/
def enter (g : Gate ε) : Option ε × Gate ε := (g.fault, { calls := g.calls + 1, fault := none })

/-- Lets the next call fail. -/
def failNext (g : Gate ε) (e : ε) : Gate ε := { g with fault := some e }

end Gate

end Convergence
