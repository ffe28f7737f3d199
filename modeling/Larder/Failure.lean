import Larder.Api.Envelope

/-!
# Failures

A failure is what a resource keeps against a key and hands to everyone who waits for it. One failure
of a load is shared by all of them.
-/

namespace Larder

/-- Why a load failed. -/
inductive Cause where
  /-- A plain reason. -/
  | plain (text : String)
  /-- The service gave no usable answer. -/
  | service (error : Api.ServiceError)
  /-- A cause that was put into a wider context. -/
  | wrapped (text : String) (cause : Cause)

namespace Cause

/-- The outermost message. -/
def message : Cause → String
  | .plain text => text
  | .service e => e.message
  | .wrapped text _ => text

/-- The error of the service behind the cause, if there is one. -/
def service? : Cause → Option Api.ServiceError
  | .plain _ => none
  | .service e => some e
  | .wrapped _ c => c.service?

end Cause

/-- Broad classes of failures. -/
inductive FailureKind where
  /-- The request produced no usable response. -/
  | transport
  /-- The service answered and reported an error. -/
  | server
  /-- The key was rejected before any request. -/
  | validation
  /-- Anything else. -/
  | other
deriving DecidableEq, Repr

/-- The failure of a load, or of the attempt to start one. -/
inductive Failure where
  /-- The load failed. -/
  | load (resource key : String) (cause : Cause)
  /-- The key was rejected. -/
  | invalidKey (resource key : String)
  /-- The load broke off before it was recorded. -/
  | aborted (resource key : String)

namespace Failure

/-- The resource the failure belongs to. -/
def resource : Failure → String
  | .load r _ _ | .invalidKey r _ | .aborted r _ => r

/-- The class of a failure. -/
def kind : Failure → FailureKind
  | .invalidKey .. => .validation
  | .aborted .. => .other
  | .load _ _ cause =>
    match cause.service? with
    | some (.transport _) | some (.http _ _) => .transport
    | some (.server _ _) => .server
    | _ => .other

/-- The wording of a failure. -/
def message : Failure → String
  | .load resource key cause => "failed to load " ++ resource ++ " " ++ key ++ ": " ++ cause.message
  | .invalidKey resource key => "invalid key for " ++ resource ++ ": " ++ key
  | .aborted resource key => "load of " ++ resource ++ " " ++ key ++ " was aborted"

end Failure

end Larder
