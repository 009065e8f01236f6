/-!
# Errors of the services

The exception classes of `domain/errors.py` that the modelled services raise.
A service that fails returns one of them and its unit of work rolls back.
`OpsError.databaseFault` stands for the exceptions that are not `OpsError`s
in the source: a constraint violation, a missing row after an insert, a lost
connection.
-/

set_option autoImplicit false

namespace OpsComposer.Domain

/-- The errors that the services raise. -/
inductive OpsError where
  | notFound (message : String)
  | idempotencyConflict
  | validation (message : String)
  | playbookNotFound
  | playbookInvalid (message : String)
  | playbookSourceDisabled
  | playbookDisabled
  | secretParametersRequired (fields : List String)
  | hostKeyConfirmationRequired
  | runNotCancelable
  | hostBusy
  | webShellCapacity
  | webShellSessionExpired
  | webShellUnavailable
  | permissionDenied
  | databaseFault
  deriving DecidableEq, Repr

namespace OpsError

end OpsError

/-- What an exception handler of the worker can tell about an exception. -/
inductive Raised where
  /-- `SecretParametersRequiredError`. -/
  | secretParametersRequired (fields : List String)
  /-- `HostKeyConfirmationRequiredError` for a host. -/
  | hostKeyConfirmationRequired (hostName : String)
  /-- Any other `OpsError`, by its `code`. -/
  | opsError (code : String)
  | valueError
  | keyError
  /-- Any other exception: a `RuntimeError`, a lost connection. -/
  | exception
  deriving DecidableEq, Repr

namespace Raised

/-- `except (OpsError, ValueError, KeyError)`. -/
def expected : Raised → Bool
  | exception => false
  | _ => true

/-- The `failure_code` of a rejected run. -/
def failureCode : Raised → String
  | hostKeyConfirmationRequired _ => "HOST_KEY_CONFIRMATION_REQUIRED"
  | secretParametersRequired _ => "SECRET_PARAMETERS_REQUIRED"
  | opsError code => code.toUpper
  | _ => "PREPARATION_FAILED"

/-- The `failure_message` of a rejected run. -/
def failureMessage : Raised → String
  | hostKeyConfirmationRequired hostName =>
      "SSH host key confirmation is required for host " ++ hostName
  | _ => "run preparation failed"

end Raised

end OpsComposer.Domain
