/-!
# Setup steps

Bringing an integration to life takes setup steps that are not repeated once they are done.
`SetupSteps` lists those done, each once, in the order in which they were first done.
-/

namespace Convergence

/-- The steps that are done, each once, the earliest first. -/
structure SetupSteps where
  done : List String := []
  nodup : done.Nodup := by simp
deriving DecidableEq, Repr

namespace SetupSteps

/-- The generated project is pushed to source control. -/
def sourceRepo : String := "source-repo-setup"

/-- Build, deployment and secret are there. -/
def provisioning : String := "provisioning-setup"

/-- The step is done. -/
def isDone (s : SetupSteps) (step : String) : Bool := s.done.contains step

/-- Notes that a step is done; nothing changes if it was noted before. -/
def mark (s : SetupSteps) (step : String) : SetupSteps :=
  if h : step ∈ s.done then s
  else ⟨s.done ++ [step], by
    simp [List.nodup_append, s.nodup]
    exact fun a ha he => h (he ▸ ha)⟩

/-- The steps of a record. -/
def ofList (steps : List String) : SetupSteps := steps.foldl mark {}

end SetupSteps

end Convergence
