import OpsComposer.Foundations.RowLocks
import OpsComposer.Repositories.Runs
import OpsComposer.Repositories.WebShell

/-!
# The statements of the run and the web-shell repository

The rows of a store as a row store, and the statements of `PostgresRunRepository` and
`PostgresWebShellRepository`: one constructor of `OpsStatement` is one SQL statement, and
`OpsStatement.meaning` says which rows it reads, locks, sets, deletes or adds.  Only
`INSERT … SELECT … ORDER BY host_id ON CONFLICT DO UPDATE`, by which a claim locks its hosts,
is one statement for each host, because it looks at each lock row when it comes to it.

The advisory lock of the admission of web shells is a row without columns: a transaction that
has it keeps it to its end, as it keeps a row.
-/

set_option autoImplicit false

namespace OpsComposer.Repositories

open Domain Foundations

/-! ## Rows -/

/-- What a row is found by. -/
inductive OpsKey where
  | run (runId : Uuid)
  | target (runTargetId : Uuid)
  | event (runEventId : Uuid)
  | secretInput (runId : Uuid)
  | lease (workerId : String)
  | lock (hostId : Uuid)
  | shell (webShellSessionId : Uuid)
  | login (sessionId : Uuid)
  | user (userId : Uuid)
  | admission
  deriving DecidableEq

/-- A row of one of the tables, or the advisory lock of the admission. -/
inductive OpsRow where
  | run (row : Run)
  | target (row : RunTarget)
  | event (row : RunEvent)
  | secretInput (row : RunSecretInput)
  | lease (row : WorkerLease)
  | lock (row : HostLock)
  | shell (row : WebShellSession)
  | login (row : LoginSession)
  | user (row : LoginUser)
  | admission

namespace OpsRow

/-- The key of a row. -/
def key : OpsRow → OpsKey
  | .run row => .run row.runId
  | .target row => .target row.runTargetId
  | .event row => .event row.runEventId
  | .secretInput row => .secretInput row.runId
  | .lease row => .lease row.workerId
  | .lock row => .lock row.hostId
  | .shell row => .shell row.webShellSessionId
  | .login row => .login row.sessionId
  | .user row => .user row.userId
  | .admission => .admission

/-- The rows of `runs`. -/
def runs : RowKind OpsRow Run where
  wrap := .run
  unwrap
    | .run row => some row
    | _ => none

/-- The rows of `run_targets`. -/
def targets : RowKind OpsRow RunTarget where
  wrap := .target
  unwrap
    | .target row => some row
    | _ => none

/-- The rows of `run_secret_inputs`. -/
def secretInputs : RowKind OpsRow RunSecretInput where
  wrap := .secretInput
  unwrap
    | .secretInput row => some row
    | _ => none

/-- The rows of `worker_leases`. -/
def leases : RowKind OpsRow WorkerLease where
  wrap := .lease
  unwrap
    | .lease row => some row
    | _ => none

/-- The rows of `host_run_locks`. -/
def locks : RowKind OpsRow HostLock where
  wrap := .lock
  unwrap
    | .lock row => some row
    | _ => none

/-- The rows of `web_shell_sessions`. -/
def shells : RowKind OpsRow WebShellSession where
  wrap := .shell
  unwrap
    | .shell row => some row
    | _ => none

/-- The rows of `sessions`. -/
def logins : RowKind OpsRow LoginSession where
  wrap := .login
  unwrap
    | .login row => some row
    | _ => none

/-- The rows of `users`. -/
def users : RowKind OpsRow LoginUser where
  wrap := .user
  unwrap
    | .user row => some row
    | _ => none

/-- The unique indexes besides the primary keys. -/
def clash : OpsRow → OpsRow → Bool
  | .run row, .run other =>
      row.requestedBy = other.requestedBy ∧ row.idempotencyKey = other.idempotencyKey
  | .target row, .target other => row.runId = other.runId ∧ row.hostId = other.hostId
  | .event row, .event other => row.runId = other.runId ∧ row.sequence = other.sequence
  | _, _ => false

end OpsRow

/-- The tables with the advisory lock. -/
structure OpsStore extends Store where
  admission : Option Unit := none

namespace OpsStore

/-- No row in any table. -/
def empty : OpsStore := { toStore := Store.empty }

/-- The rows of all the tables. -/
def rows (store : OpsStore) : List OpsRow :=
  store.runs.rows.map .run ++ store.targets.rows.map .target ++ store.events.rows.map .event ++
    store.secretInputs.rows.map .secretInput ++ store.leases.rows.map .lease ++
    store.locks.rows.map .lock ++ store.shells.rows.map .shell ++ store.logins.rows.map .login ++
    store.users.rows.map .user ++ store.admission.toList.map fun _ => .admission

/-- The row with the key. -/
def lookup (store : OpsStore) : OpsKey → Option OpsRow
  | .run runId => (store.runs.lookup runId).map .run
  | .target runTargetId => (store.targets.lookup runTargetId).map .target
  | .event runEventId => (store.events.lookup runEventId).map .event
  | .secretInput runId => (store.secretInputs.lookup runId).map .secretInput
  | .lease workerId => (store.leases.lookup workerId).map .lease
  | .lock hostId => (store.locks.lookup hostId).map .lock
  | .shell webShellSessionId => (store.shells.lookup webShellSessionId).map .shell
  | .login sessionId => (store.logins.lookup sessionId).map .login
  | .user userId => (store.users.lookup userId).map .user
  | .admission => store.admission.map fun _ => .admission

/-- The row replaces the one with its key. -/
def put (store : OpsStore) : OpsRow → OpsStore
  | .run row => { store with runs := store.runs.put row }
  | .target row => { store with targets := store.targets.put row }
  | .event row => { store with events := store.events.put row }
  | .secretInput row => { store with secretInputs := store.secretInputs.put row }
  | .lease row => { store with leases := store.leases.put row }
  | .lock row => { store with locks := store.locks.put row }
  | .shell row => { store with shells := store.shells.put row }
  | .login row => { store with logins := store.logins.put row }
  | .user row => { store with users := store.users.put row }
  | .admission => { store with admission := some () }

/-- The row with the key is deleted. -/
def erase (store : OpsStore) : OpsKey → OpsStore
  | .run runId => { store with runs := store.runs.delete fun row => row.runId = runId }
  | .target runTargetId =>
      { store with targets := store.targets.delete fun row => row.runTargetId = runTargetId }
  | .event runEventId =>
      { store with events := store.events.delete fun row => row.runEventId = runEventId }
  | .secretInput runId =>
      { store with secretInputs := store.secretInputs.delete fun row => row.runId = runId }
  | .lease workerId =>
      { store with leases := store.leases.delete fun row => row.workerId = workerId }
  | .lock hostId => { store with locks := store.locks.delete fun row => row.hostId = hostId }
  | .shell webShellSessionId =>
      { store with
        shells := store.shells.delete fun row => row.webShellSessionId = webShellSessionId }
  | .login sessionId =>
      { store with logins := store.logins.delete fun row => row.sessionId = sessionId }
  | .user userId => { store with users := store.users.delete fun row => row.userId = userId }
  | .admission => { store with admission := none }

theorem lookup_eq_some (store : OpsStore) (k : OpsKey) (r : OpsRow) :
    store.lookup k = some r ↔ r ∈ store.rows ∧ r.key = k := by
  cases k <;> cases r <;>
    simp [lookup, rows, OpsRow.key, Table.lookup_eq_some_iff, ← Option.ne_none_iff_exists']

theorem lookup_put (store : OpsStore) (r : OpsRow) (k : OpsKey) :
    (store.put r).lookup k = if r.key = k then some r else store.lookup k := by
  cases r <;> cases k <;>
    simp only [lookup, put, OpsRow.key, Table.lookup_put, OpsKey.run.injEq, OpsKey.target.injEq,
      OpsKey.event.injEq, OpsKey.secretInput.injEq, OpsKey.lease.injEq, OpsKey.lock.injEq,
      OpsKey.shell.injEq, OpsKey.login.injEq, OpsKey.user.injEq, reduceCtorEq, if_false, if_true,
      Option.map_some] <;>
    split <;> rfl

theorem lookup_erase (store : OpsStore) (k k' : OpsKey) :
    (store.erase k).lookup k' = if k = k' then none else store.lookup k' := by
  cases k <;> cases k' <;>
    simp only [lookup, erase, Table.lookup_delete_at, OpsKey.run.injEq, OpsKey.target.injEq,
      OpsKey.event.injEq, OpsKey.secretInput.injEq, OpsKey.lease.injEq, OpsKey.lock.injEq,
      OpsKey.shell.injEq, OpsKey.login.injEq, OpsKey.user.injEq, reduceCtorEq, if_false, if_true,
      Option.map_none] <;>
    split <;> rfl

instance : RowStore OpsStore OpsKey OpsRow where
  key := OpsRow.key
  rows := rows
  lookup := lookup
  put := put
  erase := erase
  lookup_eq_some := lookup_eq_some
  lookup_put := lookup_put
  lookup_erase := lookup_erase

end OpsStore

/-! ## Statements -/

/-- The SQL statements of the two repositories, with their parameters, and those by which the
authentication service changes the rows that they join. -/
inductive OpsStatement where
  | getByIdempotencyKey (requestedBy : Uuid) (idempotencyKey : String)
  /-- The first statement of `create_or_get`. -/
  | insertRun (run : Run)
  /-- One of its last statements. -/
  | insertTarget (target : RunTarget)
  | getRun (runId : Uuid)
  | targets (runId : Uuid)
  | requestCancel (runId : Uuid) (now : Nat)
  /-- The second statement of `request_cancel`. -/
  | cancelTargets (runId : Uuid) (now : Nat)
  /-- The two statements of `heartbeat`. -/
  | upsertLease (lease : WorkerLease)
  | refreshLocks (workerId : String) (expiresAt : Nat)
  /-- The first statement of `claim_next`; which rows it skips comes with it. -/
  | claimNext (workerId : String) (now : Nat) (skipped : List Uuid)
  /-- A lock for one host, of `claim_next` or of `acquire_host_lock`. -/
  | lockHost (lock : HostLock) (now : Nat)
  | recoverStale (now : Nat)
  /-- The two statements of `mark_running`. -/
  | markRunning (runId : Uuid) (now : Nat)
  | markTargetsRunning (runId : Uuid) (now : Nat)
  /-- The four statements of `finish`. -/
  | finishTargets (runId : Uuid) (status : RunStatus) (now : Nat)
  | finishRun (runId : Uuid) (workerId : String) (outcome : RunRepository.Outcome) (now : Nat)
  | releaseLocks (runId : Uuid)
  | clearLease (workerId : String) (runId : Uuid)
  | finishTarget (runTargetId : Uuid) (result : RunRepository.TargetResult) (now : Nat)
  /-- The two statements of `append_event`. -/
  | nextSequence (runId : Uuid)
  | insertEvent (event : RunEvent)
  | addSecretInputs (input : RunSecretInput)
  | consumeSecretInputs (runId : Uuid)
  | acquireAdmissionLock
  | cleanupExpired (now : Nat)
  | countLive (now : Nat)
  | addShell (session : WebShellSession)
  | getShell (webShellSessionId : Uuid) (forUpdate : Bool)
  /-- The two statements of `activate`. -/
  | activate (webShellSessionId authSessionId : Uuid) (ownerId : String) (now expiresAt : Nat)
  | handLock (webShellSessionId : Uuid) (ownerId : String) (now expiresAt : Nat)
  | heartbeatShell (webShellSessionId : Uuid) (ownerId : String)
      (now expiresAt lastActivityAt : Nat)
  | markCloseRequested (webShellSessionId actorUserId : Uuid) (now : Nat)
  | deleteShell (webShellSessionId : Uuid) (ownerId : Option String)
  | putLogin (login : LoginSession)
  | deleteLogin (sessionId : Uuid)
  | putUser (user : LoginUser)

/-- A command on these tables. -/
abbrev OpsCommand := Command OpsStore OpsKey OpsRow

section Commands

variable {τ : Type} (kind : RowKind OpsRow τ)

/-- `UPDATE` of one table. -/
def opsSet (condition : τ → Bool) (f : τ → τ)
    (keeps : ∀ t, (kind.wrap (f t)).key = (kind.wrap t).key) : OpsCommand :=
  .set (kind.meets condition) (kind.map f) (kind.map_keeps keeps)

/-- `DELETE` from one table that no other one refers to. -/
def opsDelete (condition : τ → Bool) : OpsCommand := .delete (kind.meets condition)

end Commands

namespace OpsStatement

open RunRepository WebShellRepository

/-! ### Statements on several tables -/

/-- The run has been interrupted by a recovery with this snapshot. -/
abbrev Interrupted (snapshot current : Store) (now : Nat) (runId : Uuid) : Prop :=
  StrandedId snapshot now runId ∧ StrandedId current now runId

/-- What `recover_stale` leaves of a row. -/
def recovered (snapshot : OpsStore) (now : Nat) (current : OpsStore) :
    OpsRow → Option (Option OpsRow)
  | .lease lease => if lease.expiresAt ≤ now then some none else none
  | .run run =>
      if Stranded current.toStore now run then some (some (.run (interruptedBy now run))) else none
  | .target target =>
      if Interrupted snapshot.toStore current.toStore now target.runId ∧ target.status.open? then
        some (some (.target { target with status := .interrupted, finishedAt := some now }))
      else none
  | .lock lock =>
      if lock.expiresAt ≤ now ∨
          ∃ runId ∈ lock.runId?, Interrupted snapshot.toStore current.toStore now runId then
        some none
      else none
  | _ => none

theorem recovered_keeps {snapshot : OpsStore} {now : Nat} (current : OpsStore) (row row' : OpsRow)
    (change : recovered snapshot now current row = some (some row')) : row'.key = row.key := by
  cases row <;> simp only [recovered, Option.ite_none_right_eq_some, Option.some.injEq,
    reduceCtorEq, and_false] at change
  · obtain ⟨-, rfl⟩ := change
    rfl
  · obtain ⟨-, rfl⟩ := change
    rfl

/-- The rows that a recovery is about. -/
def strandedKeys (store : OpsStore) (now : Nat) : List OpsKey :=
  (store.rows.filter fun row => (recovered store now store row).isSome).map OpsRow.key

/-- What a deletion of sessions leaves of a row: the locks that refer to a deleted session are
deleted with it. -/
def dropped (snapshot : OpsStore) (gone : WebShellSession → Bool) (current : OpsStore) :
    OpsRow → Option (Option OpsRow)
  | .shell session => if gone session then some none else none
  | .lock lock =>
      if ∃ id ∈ lock.shellId?, (∃ old ∈ snapshot.shells.lookup id, gone old) ∧
          ∃ session ∈ current.shells.lookup id, gone session then
        some none
      else none
  | _ => none

/-- `DELETE FROM web_shell_sessions`. -/
def deleteShells (store : OpsStore) (gone : WebShellSession → Bool) : OpsCommand :=
  .rewrite ((store.rows.filter fun row => (dropped store gone store row).isSome).map OpsRow.key)
    (dropped store gone) fun current row row' change => by
      cases row <;> simp [dropped] at change

/-- What `heartbeat` of the web-shell repository leaves of a row: whether the login behind the
session is valid is judged by the snapshot. -/
def refreshed (snapshot : OpsStore) (webShellSessionId : Uuid) (ownerId : String)
    (now expiresAt lastActivityAt : Nat) (current : OpsStore) : OpsRow → Option (Option OpsRow)
  | .shell session =>
      if Refreshable snapshot.toStore webShellSessionId ownerId now session then
        some (some (.shell
          { session with
            leaseExpiresAt := expiresAt
            lastActivityAt := some lastActivityAt }))
      else none
  | .lock lock =>
      if (∃ session ∈ current.shells.rows,
          Refreshable snapshot.toStore webShellSessionId ownerId now session ∧
            lock.shellId? = some session.webShellSessionId) ∧ lock.ownerId = ownerId then
        some (some (.lock { lock with expiresAt := expiresAt }))
      else none
  | _ => none

theorem refreshed_keeps {snapshot : OpsStore} {webShellSessionId : Uuid} {ownerId : String}
    {now expiresAt lastActivityAt : Nat} (current : OpsStore) (row row' : OpsRow)
    (change : refreshed snapshot webShellSessionId ownerId now expiresAt lastActivityAt current
      row = some (some row')) : row'.key = row.key := by
  cases row <;> simp only [refreshed, Option.ite_none_right_eq_some, Option.some.injEq,
    reduceCtorEq] at change
  · obtain ⟨-, rfl⟩ := change
    rfl
  · obtain ⟨-, rfl⟩ := change
    rfl

/-! ### What each statement does -/

/-- What a statement does, given what its snapshot shows. -/
def meaning (statement : OpsStatement) (store : OpsStore) : OpsCommand :=
  match statement with
  | .getByIdempotencyKey requestedBy idempotencyKey =>
      .select
        ((RunRepository.getByIdempotencyKey store.toStore requestedBy idempotencyKey).toList.map
          .run)
  | .insertRun run => .insert (.run run) true
  | .insertTarget target => .insert (.target target) false
  | .getRun runId => .select ((RunRepository.get store.toStore runId).toList.map .run)
  | .targets runId => .select ((RunRepository.targets store.toStore runId).map .target)
  | .requestCancel runId now =>
      opsSet OpsRow.runs (fun run => run.runId = runId ∧ run.status.cancelable) (canceledBy now)
        fun _ => rfl
  | .cancelTargets runId now =>
      opsSet OpsRow.targets (fun target => target.runId = runId ∧ target.status = .pending)
        (fun target => { target with status := .canceled, finishedAt := some now }) fun _ => rfl
  | .upsertLease lease =>
      .upsert (.lease lease)
        (OpsRow.leases.map fun old =>
          { old with
            runId := lease.runId
            heartbeatAt := lease.heartbeatAt
            expiresAt := lease.expiresAt })
        (OpsRow.leases.map_keeps fun _ => rfl)
  | .refreshLocks workerId expiresAt =>
      opsSet OpsRow.locks (fun lock => RefreshedBy workerId lock)
        (fun lock => { lock with expiresAt := expiresAt }) fun _ => rfl
  | .claimNext workerId now skipped =>
      opsSet OpsRow.runs
        (fun run => run.status = .queued ∧
          (candidate store.toStore now skipped).any fun chosen => chosen.runId = run.runId)
        (claimedBy workerId now) fun _ => rfl
  | .lockHost lock now =>
      .upsertIf (.lock lock) (OpsRow.locks.meets fun old => old.expiresAt ≤ now)
        (OpsRow.locks.map fun old => { lock with hostId := old.hostId })
        (OpsRow.locks.map_keeps fun _ => rfl)
  | .recoverStale now => .rewrite (strandedKeys store now) (recovered store now) recovered_keeps
  | .markRunning runId now =>
      opsSet OpsRow.runs (fun run => run.runId = runId ∧ run.status = .preparing)
        (fun run => { run with status := .running, updatedAt := now }) fun _ => rfl
  | .markTargetsRunning runId now =>
      opsSet OpsRow.targets (fun target => target.runId = runId ∧ target.status = .pending)
        (fun target => { target with status := .running, startedAt := some now }) fun _ => rfl
  | .finishTargets runId status now =>
      opsSet OpsRow.targets (fun target => target.runId = runId ∧ target.status.open?)
        (fun target =>
          { target with
            status := fallbackTargetStatus status
            finishedAt := some now }) fun _ => rfl
  | .finishRun runId workerId outcome now =>
      opsSet OpsRow.runs (fun run => run.runId = runId ∧ OwnedBy workerId run)
        (finishedWith outcome now) fun _ => rfl
  | .releaseLocks runId => opsDelete OpsRow.locks fun lock => lock.runId? = some runId
  | .clearLease workerId runId =>
      opsSet OpsRow.leases (fun lease => lease.workerId = workerId ∧ lease.runId = some runId)
        (fun lease => { lease with runId := none }) fun _ => rfl
  | .finishTarget runTargetId result now =>
      opsSet OpsRow.targets (fun target => target.runTargetId = runTargetId) (withResult result now)
        fun _ => rfl
  | .nextSequence runId =>
      opsSet OpsRow.runs (fun run => run.runId = runId)
        (fun run => { run with nextEventSequence := run.nextEventSequence + 1 }) fun _ => rfl
  | .insertEvent event => .insert (.event event) false
  | .addSecretInputs input => .insert (.secretInput input) false
  | .consumeSecretInputs runId => opsDelete OpsRow.secretInputs fun input => input.runId = runId
  | .acquireAdmissionLock => .upsert .admission id fun _ => rfl
  | .cleanupExpired now => deleteShells store fun session => Expired now session
  | .countLive now =>
      .select ((store.shells.select fun session => ¬ Expired now session).map .shell)
  | .addShell session => .insert (.shell session) false
  | .getShell webShellSessionId forUpdate =>
      if forUpdate then
        .lock (OpsRow.shells.meets fun session => session.webShellSessionId = webShellSessionId)
      else .select ((WebShellRepository.get store.toStore webShellSessionId).toList.map .shell)
  | .activate webShellSessionId authSessionId ownerId now expiresAt =>
      opsSet OpsRow.shells
        (fun session => Activatable store.toStore webShellSessionId authSessionId now session)
        (activated ownerId now expiresAt) fun _ => rfl
  | .handLock webShellSessionId ownerId now expiresAt =>
      opsSet OpsRow.locks (fun lock => UnexpiredLock webShellSessionId now lock)
        (fun lock => { lock with ownerId := ownerId, expiresAt := expiresAt }) fun _ => rfl
  | .heartbeatShell webShellSessionId ownerId now expiresAt lastActivityAt =>
      .rewrite
        ((store.rows.filter fun row => (refreshed store webShellSessionId ownerId now expiresAt
          lastActivityAt store row).isSome).map OpsRow.key)
        (refreshed store webShellSessionId ownerId now expiresAt lastActivityAt) refreshed_keeps
  | .markCloseRequested webShellSessionId actorUserId now =>
      opsSet OpsRow.shells (fun session => Closable webShellSessionId actorUserId session)
        (fun session => { session with state := .closeRequested, closeRequestedAt := some now })
        fun _ => rfl
  | .deleteShell webShellSessionId ownerId =>
      deleteShells store fun session => Deletable webShellSessionId ownerId session
  | .putLogin login =>
      .upsert (.login login)
        (OpsRow.logins.map fun old => { login with sessionId := old.sessionId })
        (OpsRow.logins.map_keeps fun _ => rfl)
  | .deleteLogin sessionId => opsDelete OpsRow.logins fun login => login.sessionId = sessionId
  | .putUser user =>
      .upsert (.user user) (OpsRow.users.map fun old => { user with userId := old.userId })
        (OpsRow.users.map_keeps fun _ => rfl)

/-- The writes that the returned rows of a statement tell. -/
def effects (statement : OpsStatement) (shown : List OpsRow) : List (Write OpsKey OpsRow) :=
  match statement with
  | .getByIdempotencyKey _ _ => []
  | .getRun _ => []
  | .targets _ => []
  | .countLive _ => []
  | .getShell _ false => []
  | .recoverStale _ =>
      shown.map fun
        | .run row => .put (.run row)
        | .target row => .put (.target row)
        | row => .erase row.key
  | .releaseLocks _ => shown.map fun row => .erase row.key
  | .consumeSecretInputs _ => shown.map fun row => .erase row.key
  | .cleanupExpired _ => shown.map fun row => .erase row.key
  | .deleteShell _ _ => shown.map fun row => .erase row.key
  | .deleteLogin _ => shown.map fun row => .erase row.key
  | _ => shown.map .put

end OpsStatement

end OpsComposer.Repositories
