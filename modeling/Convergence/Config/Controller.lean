import Convergence.Decoding
import Convergence.Reconcile.Error
import Convergence.Reconcile.Retry
import Convergence.Text.Blank
import Convergence.Text.Unsigned
/-!
# The configuration of a controller

Defaults, validation, overrides by variables of the environment, and the form in documents.  A
duration is written as its number of whole seconds.
-/

namespace Convergence

/-- What a controller can be told. -/
structure ControllerConfig where
  /-- How long after an attempt the next check is. -/
  recheckInterval : Duration := .ofSeconds 60
  /-- How long a controller that is stopped waits for the attempt under way. -/
  shutdownTimeout : Duration := .ofSeconds 10
  /-- The name of its subscription on the bus. -/
  subscriberName : String := "integration-controller"
  retry : RetryPolicy := .fixed
deriving DecidableEq, Repr

/-! ## In documents -/

/-- The node of a duration. -/
def Duration.node (d : Duration) : Node := .nat d.seconds

/-- The duration that a node holds. -/
def Duration.ofNode? (n : Node) : Option Duration :=
  (n.natBelow? UInt64.size).map fun secs => .ofSeconds (.ofNat secs)

namespace RetryPolicy

/-- The member of a policy that says which one it is. -/
def tag : String := "kind"

/-- The node of a policy. -/
def node : RetryPolicy → Node
  | .fixed => .map [(tag, .str "fixed")]
  | .exponential maxInterval =>
    .map [(tag, .str "exponential"), ("max_interval", maxInterval.node)]

/-- The policy of a name with the members given beside it; other members do not matter. -/
def ofMembers? (name : String) (members : List (String × Node)) : Option RetryPolicy :=
  if name = "fixed" then some .fixed
  else if name = "exponential" then
    if Node.occurrences "max_interval" members ≤ 1 then
      ((Node.member? members "max_interval").bind Duration.ofNode?).map .exponential
    else none
  else none

/-- The policy of a name with the values given behind it. -/
def ofItems? (name : String) (items : List Node) : Option RetryPolicy :=
  if name = "fixed" then some .fixed
  else if name = "exponential" then
    match items with
    | [n] => (Duration.ofNode? n).map .exponential
    | _ => none
  else none

/-- The policy that a node describes.  The whole node is kept while it is read, so no part of it may
be garbled or nested too deeply. -/
def ofNode? (f : Format) (n : Node) : Option RetryPolicy :=
  if n.sound && n.depth ≤ f.nestingLimit then
    match n with
    | .map members =>
      if Node.occurrences tag members ≤ 1 then
        ((Node.member? members tag).bind Node.text?).bind (ofMembers? · members)
      else none
    | .seq (first :: items) => first.text?.bind (ofItems? · items)
    | _ => none
  else none

end RetryPolicy

namespace ControllerConfig

/-- The fields of a configuration. -/
def fieldNames : List String := ["recheck_interval", "shutdown_timeout", "subscriber_name", "retry"]

/-- The members of a configuration that hold no others. -/
def settings (c : ControllerConfig) : List (String × Node) :=
  [("recheck_interval", c.recheckInterval.node), ("shutdown_timeout", c.shutdownTimeout.node),
    ("subscriber_name", .str c.subscriberName)]

/-- The node of a configuration. -/
def node (c : ControllerConfig) : Node := .map (c.settings ++ [("retry", c.retry.node)])

/-- The configuration that a node describes. -/
def ofNode? (f : Format) (n : Node) : Option ControllerConfig := do
  let m ← n.fields? f fieldNames
  let d : ControllerConfig := {}
  let recheckInterval ← m.defaulted "recheck_interval" d.recheckInterval Duration.ofNode?
  let shutdownTimeout ← m.defaulted "shutdown_timeout" d.shutdownTimeout Duration.ofNode?
  let subscriberName ← m.defaulted "subscriber_name" d.subscriberName Node.text?
  let retry ← m.defaulted "retry" d.retry (RetryPolicy.ofNode? f.inner)
  pure { recheckInterval, shutdownTimeout, subscriberName, retry }

/-! ## Validation -/

/-- The configuration makes sense: it waits for some time and has a name. -/
def validate (c : ControllerConfig) : Except ReconcileError Unit :=
  if c.recheckInterval.isZero then .error (.invalidConfig "recheck_interval must be positive")
  else if c.shutdownTimeout.isZero then .error (.invalidConfig "shutdown_timeout must be positive")
  else if (Text.trim c.subscriberName.toList).isEmpty then
    .error (.invalidConfig "subscriber_name must not be empty")
  else
    match c.retry with
    | .exponential maxInterval =>
      if maxInterval.isZero then .error (.invalidConfig "retry.max_interval must be positive")
      else .ok ()
    | .fixed => .ok ()

/-! ## Overrides -/

/-- The variable that overrides the time between checks. -/
def recheckVariable : String := "INTEGRATOR_RECHECK_INTERVAL_SECS"

/-- The variable that overrides the time to wait when stopping. -/
def shutdownVariable : String := "INTEGRATOR_SHUTDOWN_TIMEOUT_SECS"

/-- The duration that a variable gives, if it is set; white space around the number is ignored. -/
def override? (lookup : String → Option String) (setting : String) :
    Except ReconcileError (Option Duration) :=
  match lookup setting with
  | none => .ok none
  | some raw =>
    match Unsigned.read (Text.trim raw.toList) with
    | .ok secs => .ok (some (.ofSeconds (.ofNat secs)))
    | .error fault => .error (.invalidConfig (setting ++ "=" ++ raw ++ ": " ++ fault.message))

/-- The configuration with the durations that variables give. -/
def withOverrides (c : ControllerConfig) (lookup : String → Option String) :
    Except ReconcileError ControllerConfig :=
  match override? lookup recheckVariable with
  | .error e => .error e
  | .ok recheck =>
    match override? lookup shutdownVariable with
    | .error e => .error e
    | .ok shutdown =>
      .ok { c with
        recheckInterval := recheck.getD c.recheckInterval
        shutdownTimeout := shutdown.getD c.shutdownTimeout }

end ControllerConfig

end Convergence
