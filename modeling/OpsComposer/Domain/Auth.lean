import Mathlib.Data.Finset.Insert
import Mathlib.Data.Finset.Lattice.Basic
import OpsComposer.Domain.Ops

/-!
# Users, sessions and second factors

The data model of `auth/models.py` with the rows behind it, and the errors of
`auth/errors.py`.
-/

set_option autoImplicit false

namespace OpsComposer.Domain

/-- The states of an account. -/
inductive UserStatus where
  | pendingActivation
  | active
  | disabled
  deriving DecidableEq, Repr

/-- The roles of a user. -/
inductive UserRole where
  | owner
  | admin
  | operator
  | auditor
  deriving DecidableEq, Repr

/-- `role in MFA_REQUIRED_ROLES`. -/
def UserRole.mfaRequired : UserRole → Bool
  | .owner | .admin => true
  | .operator | .auditor => false

/-- What a role may permit. -/
inductive Permission where
  | assetRead
  | assetWrite
  | credentialWrite
  | playbookWrite
  | runStandard
  | runShell
  | runCancel
  | webShell
  | auditRead
  | userRead
  | userManage
  | keyRotate
  deriving DecidableEq, Repr

/-- `frozenset(Permission)`. -/
def allPermissions : Finset Permission :=
  {.assetRead, .assetWrite, .credentialWrite, .playbookWrite, .runStandard, .runShell, .runCancel,
    .webShell, .auditRead, .userRead, .userManage, .keyRotate}

/-- `_READ_PERMISSIONS`. -/
def readPermissions : Finset Permission := {.assetRead}

/-- `ROLE_PERMISSIONS`. -/
def permissionsForRole : UserRole → Finset Permission
  | .owner => allPermissions
  | .admin => readPermissions ∪
      {.assetWrite, .credentialWrite, .playbookWrite, .runStandard, .runShell, .runCancel,
        .webShell, .auditRead, .userRead}
  | .operator => readPermissions ∪ {.runStandard, .runCancel}
  | .auditor => readPermissions ∪ {.auditRead, .userRead}

/-- What a challenge is answered for. -/
inductive ChallengePurpose where
  | loginMfa
  | mfaEnrollment
  deriving DecidableEq, Repr

/-- A row of `users`: the columns of `UserIdentity` and `PasswordCredential`. -/
structure User where
  userId : Uuid
  username : String
  passwordHash : Option String := none
  status : UserStatus
  role : UserRole := .operator
  mfaEnrollmentRequired : Bool := false
  activatedAt : Option Nat := none
  version : Nat
  createdAt : Nat
  updatedAt : Nat
  passwordUpdatedAt : Option Nat := none

/-- A row of `user_mfa_factors`. -/
structure MfaFactor where
  userId : Uuid
  encryptedTotpSecret : List UInt8
  encryptionKeyVersion : Nat
  lastAcceptedStep : Option Nat := none
  confirmedAt : Option Nat := none
  createdAt : Nat
  updatedAt : Nat

/-- A row of `user_recovery_codes`. -/
structure RecoveryCode where
  recoveryCodeId : Uuid
  userId : Uuid
  codeHash : String
  usedAt : Option Nat := none
  createdAt : Nat

/-- A row of `auth_challenges`. -/
structure AuthChallenge where
  challengeId : Uuid
  userId : Uuid
  tokenHash : String
  purpose : ChallengePurpose
  expiresAt : Nat
  consumedAt : Option Nat := none
  createdAt : Nat

/-- A row of `sessions`. -/
structure AuthSession where
  sessionId : Uuid
  userId : Uuid
  tokenHash : String
  csrfHash : String
  expiresAt : Nat
  createdAt : Nat
  mfaVerifiedAt : Option Nat := none
  reauthenticatedAt : Option Nat := none
  elevatedUntil : Option Nat := none

/-- A row of `user_activation_tokens`. -/
structure ActivationToken where
  activationTokenId : Uuid
  userId : Uuid
  tokenHash : String
  createdBy : Uuid
  expiresAt : Nat
  consumedAt : Option Nat := none
  createdAt : Nat

/-- The primary key of `auth_rate_limits`. -/
structure RateLimitKey where
  scope : String
  subjectHash : String
  windowStartedAt : Nat
  deriving DecidableEq

/-- A row of `auth_rate_limits`. -/
structure RateLimit where
  key : RateLimitKey
  attemptCount : Nat
  expiresAt : Nat

/-- What `resolve` tells about a session and its user. -/
structure SessionPrincipal where
  sessionId : Uuid
  userId : Uuid
  username : String
  role : UserRole
  permissions : Finset Permission
  mfaEnabled : Bool
  mfaEnrollmentRequired : Bool
  mfaVerifiedAt : Option Nat
  reauthenticatedAt : Option Nat
  elevatedUntil : Option Nat
  csrfHash : String
  expiresAt : Nat

/-- The errors that the authentication service raises. -/
inductive AuthError where
  | invalidCredentials
  | invalidSession
  | adminAlreadyExists
  | authRateLimited (retryAfterSeconds : Nat)
  | permissionDenied
  | reauthenticationRequired
  | invalidMfaCode
  | totpDisabled
  | invalidChallenge
  | activationExpired
  | userConflict
  | userVersionConflict
  | lastOwnerRequired
  /-- `ValueError` of an argument check. -/
  | invalidArgument (message : String)
  /-- An exception that the service does not declare; the transaction rolls back. -/
  | undeclared
  deriving DecidableEq

/-- The error code in the body of the answer. -/
def AuthError.code? : AuthError → Option String
  | .invalidCredentials => some "invalid_credentials"
  | .invalidSession => some "invalid_or_expired_session"
  | .adminAlreadyExists => some "admin_already_exists"
  | .authRateLimited _ => some "auth_rate_limited"
  | .permissionDenied => some "permission_denied"
  | .reauthenticationRequired => some "reauthentication_required"
  | .invalidMfaCode => some "invalid_mfa_code"
  | .totpDisabled => some "totp_disabled"
  | .invalidChallenge => some "invalid_auth_challenge"
  | .activationExpired => some "activation_expired"
  | .userConflict => some "user_conflict"
  | .userVersionConflict => some "version_conflict"
  | .lastOwnerRequired => some "last_owner_required"
  | .invalidArgument _ | .undeclared => none

end OpsComposer.Domain
