import Convergence.Text.Decimal
/-!
# What can be wrong with a record

The ways in which an operation on a record, or the reading of one of its parts, is refused.
-/

namespace Convergence

/-- Number of a published revision. -/
abbrev Version := UInt32

namespace Version

/-- The decimal digits of a version. -/
def text (v : Version) : String := Decimal.text v.toNat

end Version

/-- Why an operation on a record is refused. -/
inductive RecordError where
  /-- An active revision was about to be changed. -/
  | immutableRevision (version : Version)
  /-- A revision with this version is already published. -/
  | duplicateRevision (version : Version)
  /-- No lifecycle state has this name. -/
  | unknownState (name : String)
  /-- No kind of record has this name. -/
  | unknownKind (name : String)
  /-- A text describes no change event. -/
  | invalidEvent (reason : String)
deriving DecidableEq, Repr

/-- The name of the kind of error. -/
def RecordError.kind : RecordError → String
  | .immutableRevision _ => "ImmutableRevision"
  | .duplicateRevision _ => "DuplicateRevision"
  | .unknownState _ => "UnknownState"
  | .unknownKind _ => "UnknownKind"
  | .invalidEvent _ => "InvalidEvent"

/-- What went wrong, in words. -/
def RecordError.message : RecordError → String
  | .immutableRevision v => "revision " ++ v.text ++ " is active and can no longer be changed"
  | .duplicateRevision v => "revision " ++ v.text ++ " already exists"
  | .unknownState name => "unknown integration state '" ++ name ++ "'"
  | .unknownKind name => "unknown kind '" ++ name ++ "'"
  | .invalidEvent reason => "invalid change event: " ++ reason

end Convergence
