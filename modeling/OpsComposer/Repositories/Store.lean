import OpsComposer.Domain.Ops
import OpsComposer.Foundations.Table

/-!
# The database rows behind runs and web shells

One `Store` is a committed state of the tables that the run repository and the
web-shell repository read and write: `runs`, `run_targets`, `run_events`,
`run_secret_inputs`, `worker_leases`, `host_execution_locks`,
`web_shell_sessions` and `audit_events`, with the columns of `sessions` and
`users` that the web-shell statements join.

Primary keys are those of the migrations.  A row of `host_execution_locks`
carries exactly one of a run and a web-shell session, as the check constraint
`ck_host_execution_lock_owner` demands, so the holder is one value.
-/

set_option autoImplicit false

namespace OpsComposer.Repositories

open Domain Foundations

/-! ## Rows -/

/-- The holder columns of a lock row: either `run_id` or `web_shell_session_id`
is set, never both. -/
inductive LockHolder where
  | run (runId : Uuid)
  | shell (webShellSessionId : Uuid)
  deriving DecidableEq, Repr

/-- A row of `host_execution_locks`. -/
structure HostLock where
  hostId : Uuid
  holder : LockHolder
  ownerId : String
  acquiredAt : Nat
  expiresAt : Nat

namespace HostLock

/-- The column `run_id`. -/
def runId? (lock : HostLock) : Option Uuid :=
  match lock.holder with
  | .run runId => some runId
  | .shell _ => none

/-- The column `web_shell_session_id`. -/
def shellId? (lock : HostLock) : Option Uuid :=
  match lock.holder with
  | .run _ => none
  | .shell webShellSessionId => some webShellSessionId

theorem runId?_eq_some {lock : HostLock} {runId : Uuid} :
    lock.runId? = some runId ↔ lock.holder = .run runId := by
  cases held : lock.holder <;> simp [runId?, held]

theorem shellId?_eq_some {lock : HostLock} {shellId : Uuid} :
    lock.shellId? = some shellId ↔ lock.holder = .shell shellId := by
  cases held : lock.holder <;> simp [shellId?, held]

end HostLock

/-- The states of a web shell. -/
inductive WebShellState where
  | pending
  | active
  | closeRequested
  deriving DecidableEq, Repr

/-- The two types of a credential. -/
inductive CredentialType where
  | password
  | sshPrivateKey
  deriving DecidableEq, Repr

/-- A row of `web_shell_sessions`. -/
structure WebShellSession where
  webShellSessionId : Uuid
  hostId : Uuid
  actorUserId : Uuid
  authSessionId : Uuid
  credentialId : Uuid
  credentialVersion : Nat
  credentialType : CredentialType := .password
  hostName : String
  hostAddress : String
  sshPort : Nat
  username : String
  state : WebShellState
  apiInstanceId : String
  ownerId : Option String := none
  ticketExpiresAt : Nat
  leaseExpiresAt : Nat
  connectedAt : Option Nat := none
  lastActivityAt : Option Nat := none
  closeRequestedAt : Option Nat := none
  createdAt : Nat

/-- A row of `run_secret_inputs`; the payload is an opaque envelope. -/
structure RunSecretInput where
  runId : Uuid
  encryptedPayload : List UInt8
  encryptionKeyVersion : Nat
  parameterNames : List String
  createdAt : Nat

/-- The columns of `sessions` that the web-shell statements join. -/
structure LoginSession where
  sessionId : Uuid
  userId : Uuid
  expiresAt : Nat

/-- The columns of `users` that the web-shell statements join. -/
structure LoginUser where
  userId : Uuid
  active : Bool

/-! ## Audit rows -/

/-- The actions that the run service, the worker and the web-shell service record. -/
inductive AuditAction where
  | runCreated
  | runRetryCreated
  | runIdempotentReplay
  | runIdempotencyConflict
  | runTargetResolutionFailed
  | runCancelRequested
  | runSecretInputConsumed
  | runClaimed
  | runStarted
  | hostCompleted
  | staleRunsRecovered
  | hostLockCollision
  | runFinished (status : RunStatus)
  | webShellRequested
  | webShellStarted
  | webShellCloseRequested
  | webShellFinished
  | webShellStaleRecovered
  deriving DecidableEq

/-- What an audit row says about who did what to which run or session. -/
structure AuditEvent where
  action : AuditAction
  actorUserId : Option Uuid := none
  workerId : Option String := none
  runId : Option Uuid := none
  resourceId : Option Uuid := none
  deriving DecidableEq

/-! ## The store -/

/-- A committed database state. -/
structure Store where
  runs : Table Run.runId
  targets : Table RunTarget.runTargetId
  events : Table RunEvent.runEventId
  secretInputs : Table RunSecretInput.runId
  leases : Table WorkerLease.workerId
  locks : Table HostLock.hostId
  shells : Table WebShellSession.webShellSessionId
  logins : Table LoginSession.sessionId
  users : Table LoginUser.userId
  audit : List AuditEvent := []

namespace Store

/-- A freshly migrated database. -/
def empty : Store where
  runs := .empty
  targets := .empty
  events := .empty
  secretInputs := .empty
  leases := .empty
  locks := .empty
  shells := .empty
  logins := .empty
  users := .empty

/-- `audit.append`. -/
def record (store : Store) (event : AuditEvent) : Store :=
  { store with audit := store.audit ++ [event] }

section Record

variable (store : Store) (event : AuditEvent)

@[simp] theorem record_runs : (store.record event).runs = store.runs := rfl
@[simp] theorem record_targets : (store.record event).targets = store.targets := rfl
@[simp] theorem record_events : (store.record event).events = store.events := rfl
@[simp] theorem record_secretInputs :
    (store.record event).secretInputs = store.secretInputs := rfl
@[simp] theorem record_leases : (store.record event).leases = store.leases := rfl
@[simp] theorem record_locks : (store.record event).locks = store.locks := rfl
@[simp] theorem record_shells : (store.record event).shells = store.shells := rfl
@[simp] theorem record_logins : (store.record event).logins = store.logins := rfl
@[simp] theorem record_users : (store.record event).users = store.users := rfl

end Record

end Store

end OpsComposer.Repositories
