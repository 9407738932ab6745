import Convergence.Application
import Convergence.CommandLine.Help
/-!
# The program

What the program does for its arguments, given the files, the environment, the clock and the numbers
made up for it.  Either it ends with some output, or a world is up and to be run.
-/

namespace Convergence

/-- How the program ends. -/
structure Ending where
  /-- The exit code: 0 if all went well, 1 for a failure, 2 for a fault of the arguments. -/
  code : Nat := 0
  output : String := ""
  errors : String := ""
deriving DecidableEq, Repr

namespace Ending

/-- The end after a failure. -/
def failure (e : AppError) : Ending := { code := 1, errors := e.report ++ "\n" }

/-- The end for arguments that make no request. -/
def ofStop : CommandLine.Stop → Ending
  | .nothingAsked => { code := 2, errors := CommandLine.Page.program.helpText false }
  | .help page long => { output := page.helpText long }
  | .version => { output := CommandLine.versionText }
  | .fault page f => { code := 2, errors := f.report page }

/-- The first line that goes to the errors, if any does. -/
def firstError? (e : Ending) : Option String :=
  if e.errors.isEmpty then none else some (String.ofList (e.errors.toList.takeWhile (· ≠ '\n')))

end Ending

/-- What the program finds where it runs. -/
structure Surroundings where
  /-- The file at a path. -/
  file : String → File
  /-- The variables of the environment. -/
  lookup : String → Option String
  clock : Timestamp
  secretAt : Nat → String
  idAt : Nat → String

namespace Program

/-- Validates a configuration and prints it. -/
def checkConfig (s : Surroundings) (config : String) : Ending :=
  match AppConfig.load (some (s.file config)) s.lookup with
  | .error e => .failure e
  | .ok c => { output := c.toml ++ "\n" }

/-- Creates the integrations of a seed file, if there is one. -/
def sow (s : Surroundings) (seed : Option String) (w : World) : Except AppError World :=
  match seed with
  | none => .ok w
  | some path =>
    match Seed.load (s.file path) with
    | .error e => .error e
    | .ok seeds =>
      match Application.seed w seeds with
      | (.error e, _) => .error e
      | (.ok _, w) => .ok w

/-- Puts everything together, creates the integrations and starts the controller. -/
def launch (s : Surroundings) (config seed : Option String) : Except AppError World :=
  match AppConfig.load (config.map s.file) s.lookup with
  | .error e => .error (.load e)
  | .ok c =>
    match Application.assemble c s.clock s.secretAt s.idAt with
    | .error e => .error e
    | .ok w =>
      match sow s seed w with
      | .error e => .error e
      | .ok w =>
        match Application.start w c with
        | (.error e, _) => .error e
        | (.ok _, w) => .ok w

/-- What the program does for its arguments: it ends, or a world is up. -/
def perform (s : Surroundings) (arguments : List String) : Ending ⊕ World :=
  match CommandLine.read arguments with
  | .error stop => .inl (.ofStop stop)
  | .ok (.checkConfig config) => .inl (checkConfig s config)
  | .ok (.run config seed) =>
    match launch s config seed with
    | .error e => .inl (.failure e)
    | .ok w => .inr w

end Program

end Convergence
