import Convergence.Fresh
import Convergence.Program
import Std.Time.DateTime
/-!
# The executable

Reads the arguments, the environment and the files, and runs the world in real time until it is
interrupted.
-/

namespace Convergence

/-- Midnight at the beginning of 1970. -/
def Timestamp.epoch : Timestamp :=
  { date := { year := 1970, month := 1, day := 1 }
    hour := 0, minute := 0, second := 0, nanosecond := 0 }

namespace Executable

/-- The point in time so many seconds and nanoseconds after 1970 began. -/
def timestamp (seconds nanoseconds : Nat) : Timestamp :=
  let day := Std.Time.PlainDate.ofEpochDay (.ofNat (seconds / 86400))
  let inDay := seconds % 86400
  ((Date.ofNumbers? day.year day.month.val.toNat day.day.val.toNat).bind fun date =>
    Timestamp.ofNumbers? date (inDay / 3600) (inDay / 60 % 60) (inDay % 60) nanoseconds).getD .epoch

/-- What the clock shows. -/
def clock : IO Timestamp := do
  let t := (← Std.Time.Timestamp.now).val
  pure (timestamp t.second.val.toNat t.nano.val.toNat)

/-- A random number of 128 bits. -/
def random : IO Nat := do
  pure ((← IO.getRandomBytes 16).foldl (fun n byte => n * 256 + byte.toNat) 0)

/-- The file at a path. -/
def readFile (path : String) : IO File := do
  match ← (IO.FS.readBinFile path).toBaseIO with
  | .ok bytes => pure (.ofBytes path bytes)
  | .error (.noFileOrDirectory ..) => pure ⟨path, .error .missing⟩
  | .error (.inappropriateType ..) => pure ⟨path, .error .isDirectory⟩
  | .error e => pure ⟨path, .error (.other (toString e))⟩

/-- The files that a request names. -/
def paths : Except CommandLine.Stop Request → List String
  | .ok (.run config seed) => config.toList ++ seed.toList
  | .ok (.checkConfig config) => [config]
  | .error _ => []

/-- What the program finds where it runs. -/
def surroundings (arguments : List String) : IO Surroundings := do
  let files ← (paths (CommandLine.read arguments)).mapM readFile
  let recheck ← IO.getEnv ControllerConfig.recheckVariable
  let shutdown ← IO.getEnv ControllerConfig.shutdownVariable
  let clock ← clock
  let milliseconds := (← Std.Time.Timestamp.now).toMillisecondsSinceUnixEpoch.val.toNat
  let first ← random
  pure
    { file := fun path => (files.find? (·.path == path)).getD ⟨path, .error .missing⟩
      lookup := fun name =>
        if name = ControllerConfig.recheckVariable then recheck
        else if name = ControllerConfig.shutdownVariable then shutdown
        else none
      clock
      secretAt := fun k => Fresh.secret (first + k)
      idAt := fun k => Fresh.id milliseconds (first + k) }

/-- Runs a world in real time; `start` is when its time began. -/
partial def drive (start : Nat) (w : World) : IO Unit := do
  let moment := (← IO.monoMsNow) - start
  let clock ← clock
  let fresh ← random
  let environment := { w.site.environment with secretAt := fun _ => Fresh.secret fresh }
  let w := { w with site := { w.site with clock, environment } }.passTo moment
  match w.step? with
  | some w => drive start w
  | none =>
    let wait := (w.nextDue?.getD (moment + 60000)) - moment
    IO.sleep (UInt32.ofNat (min 60000 (max 1 wait)))
    drive start w

end Executable

end Convergence

/-- Runs the program on its arguments. -/
def main (arguments : List String) : IO UInt32 := do
  match Convergence.Program.perform (← Convergence.Executable.surroundings arguments) arguments with
  | .inl ending =>
    IO.print ending.output
    IO.eprint ending.errors
    pure (UInt32.ofNat ending.code)
  | .inr world =>
    Convergence.Executable.drive (← IO.monoMsNow) world
    pure 0
