import OpsComposer.Foundations.DbWorld
import OpsComposer.Repositories.OpsRows
import OpsComposer.Services.Runs
import OpsComposer.Services.WebShell

/-!
# Runs and web shells, statement by statement

The units of work of `RunService`, `WorkerCoordinator` and `WebShellService` as transaction
programs: in which order an operation reads the clock, which statements it executes, and what
it concludes from the rows they return.  `Services.Runs`, `Services.WorkerCoordinator` and
`Services.WebShell` have the same operations as functions of one committed state; here other
transactions come between the statements.

What an operation reads of hosts, credentials, host keys and playbooks comes with its call.
A statement that raises ends its transaction, so that programs do not see it.
-/

set_option autoImplicit false

namespace OpsComposer.Coordination

open Domain Foundations Repositories Services
open Program

/-! ## Answers and errors -/

/-- What a unit of work raises. -/
inductive OpsFailure where
  | error (error : OpsError)
  /-- `ClaimCollisionError`. -/
  | claimCollision
  | raised (raised : Raised)

/-- What a unit of work answers. -/
inductive OpsAnswer where
  | replayed (run? : Option Run)
  | persisted (run : Run) (created : Bool)
  | canceled (run : Run)
  | claimed (run? : Option Run)
  | recovered (count : Nat)
  | finished (run : Run)
  | secrets (values : List (String × String))
  | opened (session : WebShellSession)
  | refreshed (both : Bool)
  | current (session? : Option WebShellSession)
  | written

/-- A unit of work. -/
abbrev OpsProgram := Program OpsStatement OpsRow OpsFailure

/-- An error of the database. -/
def databaseFault : OpsFailure := .error .databaseFault

/-! ## Rows -/

/-- The run in the first row. -/
def run? : List OpsRow → Option Run
  | .run row :: _ => some row
  | _ => none

/-- The session that a query has returned. -/
def shell? : List OpsRow → Option WebShellSession
  | .shell row :: _ => some row
  | _ => none

/-- The secret inputs that a query has returned. -/
def secretInput? : List OpsRow → Option RunSecretInput
  | .secretInput row :: _ => some row
  | _ => none

/-- The hosts of the targets, `ORDER BY host_id`. -/
def hostsOf (rows : List OpsRow) : List Uuid :=
  ((rows.filterMap OpsRow.targets.unwrap).map RunTarget.hostId).insertionSort (· ≤ ·)

/-! ## Runs -/

/-- One statement whose rows nobody reads. -/
def perform (statement : OpsStatement) : OpsProgram Unit := .run statement fun _ => .done ()

/-- `append_event`. -/
def appendEvent (event : RunEvent) : OpsProgram Unit := do
  let rows ← execute (.nextSequence event.runId)
  let run ← orFail databaseFault (run? rows)
  perform (.insertEvent { event with sequence := run.nextEventSequence - 1 })

/-- The first unit of work of `_create`: a run with the key is returned as it is. -/
def lookUp (requestedBy : Uuid) (idempotencyKey fingerprint : String) : OpsProgram OpsAnswer := do
  let rows ← execute (.getByIdempotencyKey requestedBy idempotencyKey)
  match run? rows with
  | none => pure (.replayed none)
  | some existing =>
      raiseIf (.error .idempotencyConflict) (decide (existing.requestFingerprint ≠ fingerprint))
      pure (.replayed (some existing))

/-- One `INSERT` for every target. -/
def insertTargets : List RunTarget → OpsProgram Unit
  | [] => .done ()
  | target :: targets => .run (.insertTarget target) fun _ => insertTargets targets

/-- `create_or_get`. -/
def createOrGet (run : Run) (targets : List RunTarget) : OpsProgram (Run × Bool) := do
  let rows ← execute (.insertRun { run with nextEventSequence := 1 })
  match run? rows with
  | some persisted =>
      insertTargets targets
      pure (persisted, true)
  | none =>
      let rows ← execute (.getByIdempotencyKey run.requestedBy run.idempotencyKey)
      let persisted ← orFail databaseFault (run? rows)
      pure (persisted, false)

/-- `add_secret_inputs`, when there are secret parameters. -/
def storeSecrets (draft : RunService.Draft) : OpsProgram Unit :=
  match draft.secretRow with
  | none => .done ()
  | some input => perform (.addSecretInputs input)

/-- `_create` and `retry` from the insert of the run on; the hosts without a confirmed host key
come with the call. -/
def persist (draft : RunService.Draft) (unconfirmed : List Uuid) : OpsProgram OpsAnswer := do
  let (persisted, created) ← createOrGet draft.run draft.targetRows
  raiseIf (.error .idempotencyConflict)
    (decide (persisted.requestFingerprint ≠ draft.fingerprint))
  if created then
    raiseIf (.error .hostKeyConfirmationRequired)
      (draft.targets.any fun target => target.hostId ∈ unconfirmed)
    storeSecrets draft
    appendEvent draft.queuedEvent
  pure (.persisted persisted created)

/-- `cancel`: a run that waits ends at once, one that runs is asked to stop. -/
def cancel (runId eventId : Uuid) : OpsProgram OpsAnswer := do
  let now ← now
  let rows ← execute (.getRun runId)
  let current ← orFail (.error (.notFound "run not found")) (run? rows)
  raiseIf (.error .runNotCancelable) current.status.terminal
  let rows ← execute (.requestCancel runId now)
  let run ← orFail (.error .runNotCancelable) (run? rows)
  if run.status = .canceled then
    perform (.cancelTargets runId now)
  appendEvent (RunService.cancelEvent runId eventId now)
  pure (.canceled run)

/-- `consume_secret_inputs` for names that are asked for. -/
def consumeSecretInputs (decryptJson : Uuid → List UInt8 → Nat → Option Dict) (runId : Uuid)
    (expectedNames : List String) : OpsProgram OpsAnswer := do
  let rows ← execute (.consumeSecretInputs runId)
  let record ← orFail (.raised (.secretParametersRequired expectedNames)) (secretInput? rows)
  raiseIf (.raised .exception)
    (decide (record.parameterNames.insertionSort (· ≤ ·) ≠
      expectedNames.insertionSort (· ≤ ·)))
  let values ← orFail (.raised .valueError)
    (decryptJson runId record.encryptedPayload record.encryptionKeyVersion)
  raiseIf (.raised .exception)
    (!(values.all (fun entry => entry.1 ∈ expectedNames) &&
      expectedNames.all fun name => values.any fun entry => entry.1 = name))
  let texts ← orFail (.raised .exception) (RunService.texts? values)
  pure (.secrets texts)

/-! ## The worker -/

/-- `heartbeat` of the run repository. -/
def refreshLease (workerId : String) (runId : Option Uuid) (now expiresAt : Nat) :
    OpsProgram Unit := do
  perform (.upsertLease
    { workerId := workerId, runId := runId, heartbeatAt := now, expiresAt := expiresAt })
  perform (.refreshLocks workerId expiresAt)

/-- The locks for the hosts in order, and how many of them were taken. -/
def lockHosts (now : Nat) (fresh : Uuid → HostLock) : List Uuid → OpsProgram Nat
  | [] => .done 0
  | host :: hosts =>
      .run (.lockHost (fresh host) now) fun rows => do
        let taken ← lockHosts now fresh hosts
        pure (rows.length + taken)

/-- `claim_next`. -/
def claimNext (workerId : String) (now leaseExpiresAt : Nat) (skipped : List Uuid) :
    OpsProgram (Option Run) := do
  let rows ← execute (.claimNext workerId now skipped)
  match run? rows with
  | none => pure none
  | some chosen =>
      let rows ← execute (.targets chosen.runId)
      let taken ← lockHosts now (RunRepository.runLock chosen.runId workerId now leaseExpiresAt)
        (hostsOf rows)
      let expected ← execute (.targets chosen.runId)
      raiseIf .claimCollision (decide (taken ≠ expected.length))
      pure (some chosen)

section Worker

variable (settings : WorkerSettings)

/-- `heartbeat` of the worker. -/
def heartbeat (workerId : String) (runId : Option Uuid) : OpsProgram OpsAnswer := do
  let now ← now
  refreshLease workerId runId now (settings.leaseUntil now)
  pure .written

/-- `claim`: the next queued run whose hosts are free. -/
def claim (workerId : String) (skipped : List Uuid) : OpsProgram OpsAnswer := do
  let now ← now
  refreshLease workerId none now (settings.leaseUntil now)
  let chosen? ← claimNext workerId now (settings.leaseUntil now) skipped
  match chosen? with
  | none => pure (.claimed none)
  | some chosen =>
      refreshLease workerId (some chosen.runId) now (settings.leaseUntil now)
      pure (.claimed (some chosen))

/-- `recover_stale` of the worker. -/
def recoverStale : OpsProgram OpsAnswer := do
  let now ← now
  let rows ← execute (.recoverStale now)
  pure (.recovered (rows.filterMap OpsRow.runs.unwrap).length)

/-- `mark_running`: the run, and then its targets. -/
def markRunning (runId : Uuid) : OpsProgram OpsAnswer := do
  let now ← now
  perform (.markRunning runId now)
  perform (.markTargetsRunning runId now)
  pure .written

/-- `append_event`, with what the worker has drafted. -/
def recordEvent (runId eventId : Uuid) (draft : WorkerCoordinator.EventDraft) :
    OpsProgram OpsAnswer := do
  let now ← now
  appendEvent (WorkerCoordinator.draftedEvent settings runId eventId draft now)
  pure .written

/-- `finish_target`. -/
def finishTarget (runTargetId : Uuid) (result : RunRepository.TargetResult) :
    OpsProgram OpsAnswer := do
  let now ← now
  perform (.finishTarget runTargetId result now)
  pure .written

/-- `finish`: the open targets, the run, its locks, the lease and the last event. -/
def finish (workerId : String) (runId eventId : Uuid) (outcome : RunRepository.Outcome) :
    OpsProgram OpsAnswer := do
  let now ← now
  perform (.finishTargets runId outcome.status now)
  let rows ← execute (.finishRun runId workerId outcome now)
  perform (.releaseLocks runId)
  perform (.clearLease workerId runId)
  let run ← orFail databaseFault (run? rows)
  let finishedAt ← Program.now
  appendEvent (WorkerCoordinator.finishedEvent runId eventId outcome finishedAt)
  pure (.finished run)

end Worker

/-! ## Web shells -/

/-- How many sessions a statement has returned. -/
def countShells (rows : List OpsRow) : Nat := (rows.filterMap OpsRow.shells.unwrap).length

/-- `create`: what it reads of the host comes with the call. -/
def createShell (maxSessions : Nat) (webShellSessionId hostId : Uuid) (principal : Principal)
    (instanceId : String) (reading : WebShellService.HostReading) : OpsProgram OpsAnswer := do
  raiseIf (.error .permissionDenied) (!principal.webShell)
  let now ← now
  perform .acquireAdmissionLock
  perform (.cleanupExpired now)
  let live ← execute (.countLive now)
  raiseIf (.error .webShellCapacity) (decide (maxSessions ≤ countShells live))
  let enabled ← orFail (.error (.notFound "host not found")) reading.enabled
  raiseIf (.error (.validation "host is disabled")) (!enabled)
  let target ← orFail (.error (.validation "host credential is missing or disabled"))
    reading.target
  raiseIf (.error .hostKeyConfirmationRequired) (!reading.hasKeys)
  let session :=
    WebShellService.pendingSession webShellSessionId hostId principal instanceId target now
  let rows ← execute (.addShell session)
  let added ← orFail databaseFault (shell? rows)
  let ticketExpiresAt := now + seconds WebShellService.ticketSeconds
  let ownerId := "pending:" ++ instanceId
  let acquired ← execute (.lockHost
    (WebShellRepository.shellLock hostId webShellSessionId ownerId now ticketExpiresAt) now)
  raiseIf (.error .hostBusy) acquired.isEmpty
  pure (.opened added)

/-- `activate` of the web-shell repository. -/
def activateShell (webShellSessionId authSessionId : Uuid) (ownerId : String)
    (now expiresAt : Nat) : OpsProgram (Option WebShellSession) := do
  let rows ← execute (.activate webShellSessionId authSessionId ownerId now expiresAt)
  match shell? rows with
  | none => pure none
  | some active =>
      let handed ← execute (.handLock webShellSessionId ownerId now expiresAt)
      raiseIf databaseFault (decide (handed.length ≠ 1))
      pure (some active)

/-- `claim`: whether a launch can be made of the credential and the host keys comes with the
call. -/
def claimShell (webShellSessionId : Uuid) (principal : Principal) (ownerId : String)
    (launchable : Bool) : OpsProgram OpsAnswer := do
  raiseIf (.error .permissionDenied) (!principal.webShell)
  let now ← now
  let rows ← execute (.getShell webShellSessionId true)
  let current ← orFail (.error .webShellSessionExpired) (shell? rows)
  raiseIf (.error .webShellSessionExpired)
    (decide (current.actorUserId ≠ principal.userId ∨
      current.authSessionId ≠ principal.sessionId ∨ current.state ≠ .pending ∨
      current.ticketExpiresAt ≤ now))
  let active? ← activateShell webShellSessionId principal.sessionId ownerId now
    (now + seconds WebShellService.leaseSeconds)
  let active ← orFail (.error .webShellSessionExpired) active?
  raiseIf (.error .webShellUnavailable) (!launchable)
  pure (.opened active)

/-- The first unit of work of `heartbeat`: the answer tells whether a session and a lock have
been refreshed. -/
def heartbeatShell (webShellSessionId : Uuid) (ownerId : String) (lastActivityAt : Nat) :
    OpsProgram OpsAnswer := do
  let now ← now
  let rows ← execute (.heartbeatShell webShellSessionId ownerId now
    (now + seconds WebShellService.leaseSeconds) lastActivityAt)
  pure (.refreshed (rows.any (fun row => (OpsRow.shells.unwrap row).isSome) &&
    rows.any fun row => (OpsRow.locks.unwrap row).isSome))

/-- The second one: the session that the reason of the end is read from. -/
def getShell (webShellSessionId : Uuid) : OpsProgram OpsAnswer := do
  let rows ← execute (.getShell webShellSessionId false)
  pure (.current (shell? rows))

/-- `request_close`: a session that is open is asked to close. -/
def requestClose (webShellSessionId : Uuid) (principal : Principal) : OpsProgram OpsAnswer := do
  let rows ← execute (.getShell webShellSessionId true)
  match (shell? rows).filter fun current => current.actorUserId = principal.userId with
  | none => pure .written
  | some current =>
      match current.state with
      | .pending =>
          perform (.deleteShell webShellSessionId none)
          pure .written
      | .active =>
          let now ← now
          perform (.markCloseRequested webShellSessionId principal.userId now)
          pure .written
      | .closeRequested => pure .written

/-- `finish` of a web shell. -/
def finishShell (webShellSessionId : Uuid) (ownerId : String) : OpsProgram OpsAnswer := do
  perform (.deleteShell webShellSessionId (some ownerId))
  pure .written

/-- `recover_stale` of the web shells. -/
def recoverShells : OpsProgram OpsAnswer := do
  perform .acquireAdmissionLock
  let now ← now
  let rows ← execute (.cleanupExpired now)
  pure (.recovered (countShells rows))

/-! ## Calls -/

/-- A statement of the authentication service on the rows that web shells join. -/
inductive AccountStatement where
  | putLogin (login : LoginSession)
  | deleteLogin (sessionId : Uuid)
  | putUser (user : LoginUser)

/-- The statement as one on all the tables. -/
def AccountStatement.ops : AccountStatement → OpsStatement
  | .putLogin login => .putLogin login
  | .deleteLogin sessionId => .deleteLogin sessionId
  | .putUser user => .putUser user

/-- A unit of work of the authentication service. -/
def changeAccounts : List AccountStatement → OpsProgram OpsAnswer
  | [] => .done .written
  | statement :: statements => .run statement.ops fun _ => changeAccounts statements

/-- A unit of work, with its arguments and what is drawn for it. -/
inductive OpsCall where
  | lookUp (requestedBy : Uuid) (idempotencyKey fingerprint : String)
  | persist (draft : RunService.Draft) (unconfirmed : List Uuid)
  | cancel (runId eventId : Uuid)
  | consumeSecretInputs (runId : Uuid) (expectedNames : List String)
  | heartbeat (workerId : String) (runId : Option Uuid)
  | claim (workerId : String) (skipped : List Uuid)
  | recoverStale
  | markRunning (runId : Uuid)
  | recordEvent (runId eventId : Uuid) (draft : WorkerCoordinator.EventDraft)
  | finishTarget (runTargetId : Uuid) (result : RunRepository.TargetResult)
  | finish (workerId : String) (runId eventId : Uuid) (outcome : RunRepository.Outcome)
  | createShell (webShellSessionId hostId : Uuid) (principal : Principal) (instanceId : String)
      (reading : WebShellService.HostReading)
  | claimShell (webShellSessionId : Uuid) (principal : Principal) (ownerId : String)
      (launchable : Bool)
  | heartbeatShell (webShellSessionId : Uuid) (ownerId : String) (lastActivityAt : Nat)
  | getShell (webShellSessionId : Uuid)
  | requestClose (webShellSessionId : Uuid) (principal : Principal)
  | finishShell (webShellSessionId : Uuid) (ownerId : String)
  | recoverShells
  | changeAccounts (statements : List AccountStatement)

/-- What the processes of a deployment share. -/
structure OpsSettings where
  worker : WorkerSettings
  webShellMaxSessions : Nat
  /-- `decrypt_json` of the run parameters. -/
  decryptJson : Uuid → List UInt8 → Nat → Option Dict

section Service

variable (settings : OpsSettings)

/-- The program of a unit of work. -/
def OpsCall.program : OpsCall → OpsProgram OpsAnswer
  | .lookUp requestedBy idempotencyKey fingerprint =>
      Coordination.lookUp requestedBy idempotencyKey fingerprint
  | .persist draft unconfirmed => Coordination.persist draft unconfirmed
  | .cancel runId eventId => Coordination.cancel runId eventId
  | .consumeSecretInputs runId expectedNames =>
      Coordination.consumeSecretInputs settings.decryptJson runId expectedNames
  | .heartbeat workerId runId => Coordination.heartbeat settings.worker workerId runId
  | .claim workerId skipped => Coordination.claim settings.worker workerId skipped
  | .recoverStale => Coordination.recoverStale
  | .markRunning runId => Coordination.markRunning runId
  | .recordEvent runId eventId draft =>
      Coordination.recordEvent settings.worker runId eventId draft
  | .finishTarget runTargetId result => Coordination.finishTarget runTargetId result
  | .finish workerId runId eventId outcome => Coordination.finish workerId runId eventId outcome
  | .createShell webShellSessionId hostId principal instanceId reading =>
      Coordination.createShell settings.webShellMaxSessions webShellSessionId hostId principal
        instanceId reading
  | .claimShell webShellSessionId principal ownerId launchable =>
      Coordination.claimShell webShellSessionId principal ownerId launchable
  | .heartbeatShell webShellSessionId ownerId lastActivityAt =>
      Coordination.heartbeatShell webShellSessionId ownerId lastActivityAt
  | .getShell webShellSessionId => Coordination.getShell webShellSessionId
  | .requestClose webShellSessionId principal =>
      Coordination.requestClose webShellSessionId principal
  | .finishShell webShellSessionId ownerId => Coordination.finishShell webShellSessionId ownerId
  | .recoverShells => Coordination.recoverShells
  | .changeAccounts statements => Coordination.changeAccounts statements

/-- The services of runs and web shells on one database. -/
def opsService :
    Service OpsStore OpsKey OpsRow OpsStatement OpsFailure OpsAnswer OpsCall where
  program := OpsCall.program settings
  meaning := OpsStatement.meaning
  clash := OpsRow.clash
  constraint _ := true

end Service

/-- Their database, with its transactions. -/
abbrev OpsDb := Db OpsStore OpsKey OpsRow OpsStatement OpsFailure OpsAnswer OpsCall

/-- A unit of work on it. -/
abbrev OpsTxn := Txn OpsStore OpsKey OpsRow OpsStatement OpsFailure OpsAnswer OpsCall

/-- An event in the log of a unit of work. -/
abbrev OpsEvent := Event OpsStatement OpsRow

/-- The database as its callers step it. -/
abbrev OpsWorld := DbWorld OpsStore OpsKey OpsRow OpsStatement OpsFailure OpsAnswer OpsCall

/-- Runs, workers and web shells as a transition system, from one of the given stores on. -/
def opsSystem (settings : OpsSettings) (initial : OpsStore → Prop) :
    System OpsWorld (DbAct OpsCall) :=
  (opsService settings).system initial

end OpsComposer.Coordination
