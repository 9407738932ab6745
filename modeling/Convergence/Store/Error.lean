/-!
# What can go wrong in the store and on the bus
-/

namespace Convergence

/-- Why a call of the store or of the bus failed. -/
inductive StoreError where
  /-- No record has this id. -/
  | notFound (id : String)
  /-- A record with this id is there already. -/
  | alreadyExists (id : String)
  /-- Nothing comes from this subscription. -/
  | channelClosed (name : String)
  /-- Any other failure. -/
  | operationFailed (operation reason : String)
deriving DecidableEq, Repr

namespace StoreError

/-- The name of the kind of error. -/
def kind : StoreError → String
  | .notFound _ => "NotFound"
  | .alreadyExists _ => "AlreadyExists"
  | .channelClosed _ => "ChannelClosed"
  | .operationFailed _ _ => "OperationFailed"

/-- What went wrong, in words. -/
def message : StoreError → String
  | .notFound id => "integration '" ++ id ++ "' not found"
  | .alreadyExists id => "integration '" ++ id ++ "' already exists"
  | .channelClosed name => "subscription '" ++ name ++ "' closed"
  | .operationFailed operation reason =>
    "store operation '" ++ operation ++ "' failed: " ++ reason

/-- The error is that no record has the id. -/
def isNotFound : StoreError → Bool
  | .notFound _ => true
  | _ => false

end StoreError

end Convergence
