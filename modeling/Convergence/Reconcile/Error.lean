import Convergence.Backend.Provisioner
import Convergence.Backend.SourceControl
import Convergence.Lifecycle
import Convergence.Store.Error
/-!
# What can go wrong in reconciling
-/

namespace Convergence

/-- Why an attempt to converge, or the setup of a controller, failed. -/
inductive ReconcileError where
  /-- Two handlers are meant for the same state. -/
  | duplicateTrigger (state : State) (existing duplicate : String)
  /-- A handler is meant for no state. -/
  | noTriggers (handler : String)
  /-- A revision to stop was never published. -/
  | missingVersion (integration : String)
  | handlerFailed (handler reason : String)
  | provisioning (e : ProvisionError)
  | sourceControl (e : SourceControlError)
  | store (e : StoreError)
  | record (e : RecordError)
  /-- No project could be generated. -/
  | projectGeneration (reason : String)
  /-- The controller runs no more. -/
  | controllerStopped
  /-- A configuration has values that make no sense. -/
  | invalidConfig (reason : String)
  /-- The text of a configuration is malformed. -/
  | malformedConfig (detail : String)
  /-- A configuration file could not be read. -/
  | configRead (path reason : String)
deriving DecidableEq, Repr

/-- The name of the kind of error; that of an error from elsewhere is told with its origin. -/
def ReconcileError.kind : ReconcileError → String
  | .duplicateTrigger _ _ _ => "DuplicateTrigger"
  | .noTriggers _ => "NoTriggers"
  | .missingVersion _ => "MissingVersion"
  | .handlerFailed _ _ => "HandlerFailed"
  | .provisioning e => "Provisioning." ++ e.kind
  | .sourceControl e => "SourceControl." ++ e.kind
  | .store e => "Store." ++ e.kind
  | .record e => "Model." ++ e.kind
  | .projectGeneration _ => "ProjectGeneration"
  | .controllerStopped => "ControllerStopped"
  | .invalidConfig _ => "InvalidConfig"
  | .malformedConfig _ => "InvalidConfig"
  | .configRead _ _ => "ConfigRead"

/-- What went wrong, in words. -/
def ReconcileError.message : ReconcileError → String
  | .duplicateTrigger state existing duplicate =>
    "state '" ++ state.name ++ "' is already handled by '" ++ existing ++ "', refusing '"
      ++ duplicate ++ "'"
  | .noTriggers handler => "handler '" ++ handler ++ "' declares no trigger states"
  | .missingVersion integration =>
    "integration '" ++ integration ++ "' has no versioned revision to act on"
  | .handlerFailed handler reason => "handler '" ++ handler ++ "' failed: " ++ reason
  | .provisioning e => e.message
  | .sourceControl e => e.message
  | .store e => e.message
  | .record e => e.message
  | .projectGeneration reason => "project generation failed: " ++ reason
  | .controllerStopped => "controller stopped"
  | .invalidConfig reason => "invalid configuration: " ++ reason
  | .malformedConfig detail => "invalid configuration: Failed to parse config: " ++ detail
  | .configRead path reason => "failed to read config '" ++ path ++ "': " ++ reason

end Convergence
