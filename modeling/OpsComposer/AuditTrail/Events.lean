import OpsComposer.Domain.Ops
import OpsComposer.Foundations.OrderedLimit
import OpsComposer.Foundations.RowLocks
import Mathlib.Data.Prod.Lex

/-!
# The audit trail

The rows of `audit_events` with the columns that its queries look at, the statements of
`PostgresAuditRepository`, and the units of work that append and purge.  The rows of the
trail are never changed, which a trigger sees to.

`pg_try_advisory_xact_lock` is a lock on a row of its own; whether a purge gets it is
decided with the call.  No other transaction locks audit rows, so that `SKIP LOCKED`
skips nothing.
-/

set_option autoImplicit false

namespace OpsComposer.AuditTrail

open Domain Foundations

/-! ## Events -/

/-- The actions that are audited. -/
inductive AuditAction where
  | requestCompleted | requestRejected | requestValidationFailed | unhandledException
  | appStarting | appReady | appStopped | databaseUnavailable | databaseRecovered
  | migrationStarted | migrationCompleted | migrationFailed | migrationValidationFailed
  | masterKeyInitialized | masterKeyValidated | masterKeyValidationFailed
  | playbookWorkspaceFailed | runtimeDirectoryFailed | auditPersistFailed | auditExported
  | auditRetentionPurged | adminBootstrapped | adminBootstrapRejected | authLoginSucceeded
  | authLoginFailed | authRateLimited | authSessionInvalid | authLogoutSucceeded | originDenied
  | csrfDenied | authPurgeCompleted | userCreated | userActivated | userUpdated | userRoleChanged
  | userDisabled | userActivationReissued | userSessionsRevoked | userMfaEnrollmentStarted
  | userMfaEnrollmentSucceeded | userMfaReset | userMfaBreakGlass | userRecoveryCodesRegenerated
  | userPasswordChanged | authMfaSucceeded | authMfaFailed | authRecoveryUsed
  | authReauthSucceeded | authReauthFailed | authPermissionDenied | credentialCreated
  | credentialRotated | credentialDeleted | credentialUpdated | credentialEnabled
  | credentialDisabled | masterKeyRegistered | masterKeyRotationRequested
  | masterKeyRotationStarted | masterKeyRotationBatchCompleted | masterKeyRotationSucceeded
  | masterKeyRotationFailed | hostCreated | hostUpdated | hostDeleted | groupCreated
  | groupUpdated | groupDeleted | hostKeyScanStarted | hostKeyScanSucceeded | hostKeyScanFailed
  | hostKeyConfirmed | hostKeyChanged | runCreated | runIdempotentReplay | runIdempotencyConflict
  | runTargetResolutionFailed | runCancelRequested | runCancelRejected | runRetryCreated
  | workerStarted | workerReady | workerStopped | workerLoopFailed | staleRunsRecovered
  | runClaimed | hostLockCollision | runPreparationFailed | runtimeDirectoryCreated
  | runtimeDirectoryCleaned | runStarted | hostCompleted | runSucceeded | runPartial | runFailed
  | runRejected | runCanceled | runTimedOut | runInterrupted | playbookCreated | playbookUpdated
  | playbookDeleted | playbookValidationSucceeded | playbookValidationFailed
  | playbookSourceDisabled | playbookImported | playbookExported | playbookRevisionRestored
  | playbookPreviewed | runSecretInputConsumed | webShellRequested | webShellStarted
  | webShellCloseRequested | webShellClosed | webShellDenied | webShellFailed | webShellTimedOut
  | webShellStaleRecovered
  deriving DecidableEq

/-- How an audited action went. -/
inductive AuditOutcome where
  | started
  | succeeded
  | failed
  | denied
  | noop
  deriving DecidableEq

/-- The process that an event comes from. -/
inductive AuditSource where
  | api
  | worker
  | cli
  | system
  deriving DecidableEq

/-- A row of `audit_events`. -/
structure AuditEvent where
  auditEventId : Nat
  occurredAt : Nat
  source : AuditSource
  eventAction : AuditAction
  eventOutcome : AuditOutcome
  actorUserId : Option Uuid := none
  runId : Option Uuid := none
  resourceType : Option String := none
  resourceId : Option String := none
  errorCode : Option String := none
  deriving DecidableEq

/-- The columns `(occurred_at, audit_event_id)`, compared as a row. -/
def AuditEvent.position (event : AuditEvent) : ℕ ×ₗ ℕ :=
  toLex (event.occurredAt, event.auditEventId)

/-- The filters of a query, its cursor and its limit. -/
structure AuditQuery where
  since : Nat
  until? : Option Nat := none
  action : Option AuditAction := none
  outcome : Option AuditOutcome := none
  source : Option AuditSource := none
  runId : Option Uuid := none
  actorUserId : Option Uuid := none
  resourceType : Option String := none
  resourceId : Option String := none
  errorCode : Option String := none
  beforeId : Option Nat := none
  limit : Nat := 200
  limit_pos : 1 ≤ limit := by decide

/-- The predicates of a query but for the one on the cursor. -/
def AuditQuery.filters (query : AuditQuery) (event : AuditEvent) : Bool :=
  decide (query.since ≤ event.occurredAt) &&
    query.until?.all (fun bound => decide (event.occurredAt < bound)) &&
    query.action.all (fun action => decide (event.eventAction = action)) &&
    query.outcome.all (fun outcome => decide (event.eventOutcome = outcome)) &&
    query.source.all (fun source => decide (event.source = source)) &&
    query.runId.all (fun runId => decide (event.runId = some runId)) &&
    query.actorUserId.all (fun userId => decide (event.actorUserId = some userId)) &&
    query.resourceType.all (fun type => decide (event.resourceType = some type)) &&
    query.resourceId.all (fun id => decide (event.resourceId = some id)) &&
    query.errorCode.all (fun code => decide (event.errorCode = some code))

/-! ## Rows -/

/-- What a row or a lock of the trail is found by. -/
inductive AuditKey where
  | event (auditEventId : Nat)
  /-- `AUDIT_CLEANUP_LOCK_KEY`. -/
  | cleanupLock
  deriving DecidableEq

/-- A row of the trail, or the lock that its cleanup holds. -/
inductive AuditRow where
  | event (row : AuditEvent)
  | cleanupLock

/-- The key of a row. -/
def AuditRow.key : AuditRow → AuditKey
  | .event row => .event row.auditEventId
  | .cleanupLock => .cleanupLock

/-- The rows of `audit_events`. -/
def AuditRow.events : RowKind AuditRow AuditEvent where
  wrap := .event
  unwrap
    | .event row => some row
    | .cleanupLock => none

/-- The row stands for the lock of the cleanup. -/
def AuditRow.isCleanupLock : AuditRow → Bool
  | .event _ => false
  | .cleanupLock => true

/-- The tables of the trail. -/
abbrev AuditStore := Table AuditRow.key

namespace AuditStore

/-- A freshly migrated database. -/
def start : AuditStore := Table.empty.put .cleanupLock

/-- The events that are stored. -/
def events (store : AuditStore) : List AuditEvent := store.rows.filterMap AuditRow.events.unwrap

/-- The event with an identifier. -/
def event? (store : AuditStore) (auditEventId : Nat) : Option AuditEvent :=
  (store.lookup (.event auditEventId)).bind AuditRow.events.unwrap

end AuditStore

/-! ## Queries -/

namespace AuditRepository

/-- The predicate on the cursor; the subselect has no row, and the comparison is null,
when the event of the cursor is not stored. -/
def pastCursor (store : AuditStore) (beforeId : Option Nat) (event : AuditEvent) : Bool :=
  match beforeId with
  | none => true
  | some cursor => (store.event? cursor).any fun at_cursor =>
      decide (event.position < at_cursor.position)

/-- `list_events`: the events of one page, the newest first. -/
def listEvents (store : AuditStore) (query : AuditQuery) : List AuditEvent :=
  orderedLimit (fun event other => other.position ≤ event.position) query.limit
    (store.events.filter fun event =>
      query.filters event && pastCursor store query.beforeId event)

/-- The rows that a purge deletes. -/
def expired (store : AuditStore) (cutoff batchSize : Nat) : List AuditEvent :=
  orderedLimit (fun event other => event.position ≤ other.position) batchSize
    (store.events.filter fun event => decide (event.occurredAt < cutoff))

end AuditRepository

/-! ## Statements and units of work -/

/-- The statements of the repository that write. -/
inductive AuditStatement where
  | append (event : AuditEvent)
  | tryCleanupLock
  | deleteExpired (cutoff batchSize : Nat)

/-- What a statement does to the tables. -/
def AuditStatement.meaning (statement : AuditStatement) (store : AuditStore) :
    Command AuditStore AuditKey AuditRow :=
  match statement with
  | .append event => .insert (.event event) false
  | .tryCleanupLock => .lock AuditRow.isCleanupLock
  | .deleteExpired cutoff batchSize =>
      .delete (AuditRow.events.meets fun event =>
        decide (event ∈ AuditRepository.expired store cutoff batchSize))

/-- A transaction of the trail, with its arguments. -/
inductive AuditCall where
  /-- A transaction that appends events, with what the identity column gives them. -/
  | append (events : List AuditEvent)
  | purgeBatch (cutoff batchSize : Nat) (acquired : Bool)

/-- What a unit of work answers: `purge_batch` its pair. -/
inductive AuditAnswer where
  | appended
  | purged (acquired : Bool) (count : Nat)

/-- A program of such statements, which raises nothing of its own. -/
abbrev AuditProgram := Program AuditStatement AuditRow Empty AuditAnswer

namespace AuditRepository

/-- `append`, once for every event of the transaction. -/
def append : List AuditEvent → AuditProgram
  | [] => .done .appended
  | event :: events => .run (.append event) fun _ => append events

/-- `purge_batch`: nothing is deleted when another process has the advisory lock. -/
def purgeBatch (cutoff batchSize : Nat) (acquired : Bool) : AuditProgram :=
  if acquired then
    .run .tryCleanupLock fun _ =>
      .run (.deleteExpired cutoff batchSize) fun rows => .done (.purged true rows.length)
  else .done (.purged false 0)

end AuditRepository

namespace AuditCall

/-- The program of a call. -/
def program : AuditCall → AuditProgram
  | .append events => AuditRepository.append events
  | .purgeBatch cutoff batchSize acquired => AuditRepository.purgeBatch cutoff batchSize acquired

/-- The events that a call appends. -/
def events : AuditCall → List AuditEvent
  | .append events => events
  | .purgeBatch _ _ _ => []

end AuditCall

/-- The trail as a service on a database. -/
def auditService :
    Service AuditStore AuditKey AuditRow AuditStatement Empty AuditAnswer AuditCall where
  program := AuditCall.program
  meaning := AuditStatement.meaning
  clash _ _ := false
  constraint _ := true

/-- The database of the trail, with its transactions. -/
abbrev AuditDb := Db AuditStore AuditKey AuditRow AuditStatement Empty AuditAnswer AuditCall

/-- A transaction of the trail. -/
abbrev AuditTxn := Txn AuditStore AuditKey AuditRow AuditStatement Empty AuditAnswer AuditCall

/-! ## The export -/

/-- The loop of `export_audit_events`: what it has yielded, and where it goes on.  A page
is one query in a unit of work of its own, which sees the committed state. -/
structure Export where
  /-- `base_query`. -/
  query : AuditQuery
  /-- The rows that were stored when the first page was read. -/
  first : AuditStore
  pages : List (List AuditEvent) := []
  cursor : Option Nat := none
  ended : Bool := false

namespace Export

/-- The page that comes next. -/
def page (loop : Export) (store : AuditStore) : List AuditEvent :=
  AuditRepository.listEvents store { loop.query with beforeId := loop.cursor }

/-- One turn of the loop. -/
def turn (loop : Export) (store : AuditStore) : Export :=
  let page := loop.page store
  if page.length < loop.query.limit then
    { loop with pages := loop.pages ++ [page], ended := true }
  else
    { loop with pages := loop.pages ++ [page], cursor := page.getLast?.map (·.auditEventId) }

/-- The loop with its first turn. -/
def start (query : AuditQuery) (store : AuditStore) : Export :=
  turn { query := query, first := store } store

/-- What has been yielded so far. -/
def listed (loop : Export) : List AuditEvent := loop.pages.flatten

section Turn

variable (loop : Export) (store : AuditStore)

theorem turn_cases :
    ((loop.page store).length < loop.query.limit ∧
        loop.turn store = { loop with pages := loop.pages ++ [loop.page store], ended := true }) ∨
      (loop.query.limit ≤ (loop.page store).length ∧
        loop.turn store =
          { loop with
            pages := loop.pages ++ [loop.page store]
            cursor := (loop.page store).getLast?.map (·.auditEventId) }) := by
  by_cases short : (loop.page store).length < loop.query.limit
  · exact .inl ⟨short, if_pos short⟩
  · exact .inr ⟨Nat.le_of_not_lt short, if_neg short⟩

@[simp] theorem turn_query : (loop.turn store).query = loop.query := by
  rcases loop.turn_cases store with ⟨-, turned⟩ | ⟨-, turned⟩ <;> rw [turned]

@[simp] theorem turn_first : (loop.turn store).first = loop.first := by
  rcases loop.turn_cases store with ⟨-, turned⟩ | ⟨-, turned⟩ <;> rw [turned]

@[simp] theorem turn_listed : (loop.turn store).listed = loop.listed ++ loop.page store := by
  rcases loop.turn_cases store with ⟨-, turned⟩ | ⟨-, turned⟩ <;> simp [turned, listed]

end Turn

end Export

/-! ## The system -/

/-- The database and the exports that read it. -/
structure AuditWorld where
  db : AuditDb
  exports : List Export

/-- What can happen next. -/
inductive AuditAct where
  | onDb (action : DbAction AuditCall)
  /-- An export begins, and reads its first page. -/
  | exportEvents (query : AuditQuery)
  /-- An export reads its next page. -/
  | turn (loop : Nat)

namespace AuditWorld

/-- The identity column gives every event an identifier of its own. -/
def admits (world : AuditWorld) (call : AuditCall) : Bool :=
  decide (call.events.map (·.auditEventId)).Nodup &&
    world.db.txns.all fun txn => txn.call.events.all fun event =>
      call.events.all fun other => decide (event.auditEventId ≠ other.auditEventId)

/-- A step of the database. -/
def onDb (world : AuditWorld) (action : DbAction AuditCall) : Option AuditWorld :=
  (world.db.step auditService action).map fun db => { world with db := db }

/-- One step: of a transaction whose call is admitted, or of an export. -/
def step (world : AuditWorld) : AuditAct → Option AuditWorld
  | .onDb (.begin call) => if world.admits call then world.onDb (.begin call) else none
  | .onDb action => world.onDb action
  | .exportEvents query => some { world with exports := world.exports ++ [.start query world.db.state] }
  | .turn i =>
      world.exports[i]?.bind fun loop =>
        if loop.ended then none
        else some { world with exports := world.exports.set i (loop.turn world.db.state) }

end AuditWorld

/-- The audit trail as a transition system. -/
def auditSystem : System AuditWorld AuditAct where
  init world := world = { db := { state := .start }, exports := [] }
  step := AuditWorld.step

end OpsComposer.AuditTrail
