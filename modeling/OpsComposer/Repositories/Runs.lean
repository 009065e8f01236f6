import OpsComposer.Repositories.Store
import Mathlib.Data.List.Sort

/-!
# The run repository

The statements of `repositories/runs.py`, each as a function on the committed
store.  A function that can raise returns `Option` or `Except`; the unit of
work around it then rolls back, which is to say that the caller keeps the old
store.

A `WHERE` clause is a decidable proposition about a row.  Several
data-modifying common table expressions of one statement read one snapshot, so
`recoverStale` computes every part from the store before the statement.
-/

set_option autoImplicit false

namespace OpsComposer.Repositories.RunRepository

open Domain Foundations

/-! ## Creating -/

/-- `SELECT … WHERE requested_by = … AND idempotency_key = …`. -/
def getByIdempotencyKey (store : Store) (requestedBy : Uuid) (idempotencyKey : String) :
    Option Run :=
  store.runs.rows.find? fun run =>
    decide (run.requestedBy = requestedBy ∧ run.idempotencyKey = idempotencyKey)

/-- The unique constraint `(run_id, host_id)`, for rows that are to be inserted. -/
abbrev TargetsDistinct (store : Store) (targets : List RunTarget) : Prop :=
  (targets.map fun target => (target.runId, target.hostId)).Nodup ∧
    ∀ target ∈ targets, ∀ row ∈ store.targets.rows,
      ¬ (row.runId = target.runId ∧ row.hostId = target.hostId)

/-- `INSERT … ON CONFLICT (requested_by, idempotency_key) DO NOTHING RETURNING`,
then the stored row, and the target rows when the run is new.  A clash of a
primary key or of a target's host is an error. -/
def createOrGet (store : Store) (run : Run) (targets : List RunTarget) :
    Option ((Run × Bool) × Store) :=
  match getByIdempotencyKey store run.requestedBy run.idempotencyKey with
  | some persisted => some ((persisted, false), store)
  | none =>
      let inserted : Run := { run with nextEventSequence := 1 }
      match store.runs.insert? inserted, store.targets.insertAll? targets with
      | some runs, some rows =>
          if TargetsDistinct store targets then
            some ((inserted, true), { store with runs := runs, targets := rows })
          else none
      | _, _ => none

variable {now : Nat} {run : Run} {store store' : Store}

/-- A run and targets that are inserted had free keys, and nothing else changes. -/
theorem createOrGet_created {persisted : Run} {targets : List RunTarget}
    (done : createOrGet store run targets = some ((persisted, true), store')) :
    getByIdempotencyKey store run.requestedBy run.idempotencyKey = none ∧
      store.runs.lookup run.runId = none ∧ persisted = { run with nextEventSequence := 1 } ∧
      ∃ rows, store.targets.insertAll? targets = some rows ∧
        store' = { store with
          runs := store.runs.put { run with nextEventSequence := 1 }
          targets := rows } := by
  unfold createOrGet at done
  cases existing : getByIdempotencyKey store run.requestedBy run.idempotencyKey with
  | some other => simp [existing] at done
  | none =>
      simp only [existing] at done
      split at done
      · rename_i runs rows inserted added
        split at done
        · obtain ⟨free, rfl⟩ := Table.insert?_eq_some.mp inserted
          simp only [Option.some.injEq, Prod.mk.injEq, and_true] at done
          exact ⟨rfl, free, done.1.symm, rows, added, done.2.symm⟩
        · cases done
      · cases done

/-- A stored run with the key is returned as it is. -/
theorem createOrGet_found {persisted : Run} {targets : List RunTarget}
    (done : createOrGet store run targets = some ((persisted, false), store')) :
    getByIdempotencyKey store run.requestedBy run.idempotencyKey = some persisted ∧
      store' = store := by
  unfold createOrGet at done
  cases existing : getByIdempotencyKey store run.requestedBy run.idempotencyKey with
  | some other =>
      simp only [existing, Option.some.injEq, Prod.mk.injEq, and_true] at done
      exact ⟨congrArg some done.1, done.2.symm⟩
  | none =>
      simp only [existing] at done
      split at done
      · split at done <;> simp at done
      · cases done

/-! ## Reading -/

/-- `get`. -/
def get (store : Store) (runId : Uuid) : Option Run := store.runs.lookup runId

/-- `SELECT … WHERE run_id = … ORDER BY host_name`. -/
def targets (store : Store) (runId : Uuid) : List RunTarget :=
  (store.targets.select fun target => target.runId = runId).insertionSort
    fun a b => a.hostName ≤ b.hostName

/-- `SELECT … WHERE run_id = … AND sequence > … ORDER BY sequence LIMIT …`. -/
def eventsAfter (store : Store) (runId : Uuid) (sequence limit : Nat) : List RunEvent :=
  ((store.events.select fun event =>
      event.runId = runId ∧ sequence < event.sequence).insertionSort
    fun a b => a.sequence ≤ b.sequence).take limit

/-! ## Cancelling -/

/-- The `CASE` expressions of `request_cancel`. -/
def canceledBy (now : Nat) (run : Run) : Run :=
  { run with
    cancelRequestedAt := some now
    status := if run.status = .queued then .canceled else run.status
    finishedAt := if run.status = .queued then some now else run.finishedAt
    updatedAt := now }

@[simp] theorem canceledBy_runId (now : Nat) (run : Run) :
    (canceledBy now run).runId = run.runId := rfl

/-- A run that a worker holds is only marked. -/
theorem canceledBy_status_of_active (active : run.status.active = true) :
    (canceledBy now run).status = run.status := by
  have unqueued : run.status ≠ .queued := by
    intro queued
    rw [queued] at active
    cases active
  simp [canceledBy, unqueued]

/-- The target rows of a run that is canceled in the queue. -/
def cancelTargets (store : Store) (runId : Uuid) (now : Nat) : Store :=
  { store with
    targets := store.targets.update
      (fun target => target.runId = runId ∧ target.status = .pending)
      (fun target => { target with status := .canceled, finishedAt := some now }) fun _ => rfl }

/-- The target rows after a cancellation in the queue. -/
theorem cancelTargets_targets (store : Store) (runId : Uuid) (now : Nat) (id : Uuid) :
    (cancelTargets store runId now).targets.lookup id = (store.targets.lookup id).map fun target =>
      if target.runId = runId ∧ target.status = .pending then
        { target with status := .canceled, finishedAt := some now }
      else target := by
  simp only [cancelTargets, Table.lookup_update]

/-- `request_cancel`: nothing where the run has ended. -/
def requestCancel (store : Store) (runId : Uuid) (now : Nat) : Option (Run × Store) :=
  match store.runs.lookup runId with
  | none => none
  | some run =>
      if run.status.cancelable then
        let row := canceledBy now run
        let marked := { store with
          runs := store.runs.update (fun r => r.runId = runId) (canceledBy now)
            (canceledBy_runId now) }
        some (row, if row.status = .canceled then cancelTargets marked runId now else marked)
      else none

/-- What a cancellation does: the row is marked, a queued one is canceled with
its pending targets, and nothing else changes. -/
theorem requestCancel_spec {runId : Uuid}
    (done : requestCancel store runId now = some (run, store')) :
    ∃ current, store.runs.lookup runId = some current ∧ current.status.cancelable = true ∧
      run = canceledBy now current ∧
      store' =
        if run.status = .canceled then
          cancelTargets { store with
            runs := store.runs.update (fun r => r.runId = runId) (canceledBy now)
              (canceledBy_runId now) } runId now
        else { store with
          runs := store.runs.update (fun r => r.runId = runId) (canceledBy now)
            (canceledBy_runId now) } := by
  unfold requestCancel at done
  cases found : store.runs.lookup runId with
  | none => simp [found] at done
  | some current =>
      simp only [found] at done
      split at done
      · rename_i open?
        simp only [Option.some.injEq, Prod.mk.injEq] at done
        obtain ⟨rfl, rfl⟩ := done
        exact ⟨current, rfl, open?, rfl, rfl⟩
      · cases done

/-! ## Leases and locks -/

/-- The locks that a heartbeat of a worker id refreshes. -/
abbrev RefreshedBy (workerId : String) (lock : HostLock) : Prop :=
  lock.ownerId = workerId ∧ lock.runId?.isSome

/-- A refresh keeps the owner and the holder of a lock. -/
theorem refreshedBy_again {workerId : String} {lock : HostLock}
    (refreshed : RefreshedBy workerId lock) (expiresAt : Nat) :
    RefreshedBy workerId { lock with expiresAt := expiresAt } :=
  refreshed

/-- The upsert of the worker lease, and the refresh of every run lock that the
worker id owns. -/
def heartbeat (store : Store) (workerId : String) (runId : Option Uuid)
    (now expiresAt : Nat) : Store :=
  { store with
    leases := store.leases.put
      { workerId := workerId, runId := runId, heartbeatAt := now, expiresAt := expiresAt }
    locks := store.locks.update (RefreshedBy workerId)
      (fun lock => { lock with expiresAt := expiresAt }) fun _ => rfl }

/-- The lease rows after a heartbeat. -/
theorem heartbeat_leases (store : Store) (workerId : String) (runId : Option Uuid)
    (now expiresAt : Nat) (id : String) :
    (heartbeat store workerId runId now expiresAt).leases.lookup id =
      if workerId = id then
        some { workerId := workerId, runId := runId, heartbeatAt := now, expiresAt := expiresAt }
      else store.leases.lookup id :=
  Table.lookup_put ..

/-- The lock rows after a heartbeat. -/
theorem heartbeat_locks (store : Store) (workerId : String) (runId : Option Uuid)
    (now expiresAt : Nat) (host : Uuid) :
    (heartbeat store workerId runId now expiresAt).locks.lookup host =
      (store.locks.lookup host).map fun lock =>
        if RefreshedBy workerId lock then { lock with expiresAt := expiresAt } else lock := by
  simp only [heartbeat, Table.lookup_update]

/-- `ORDER BY created_at, run_id`. -/
abbrev QueuedBefore (a b : Run) : Prop :=
  a.createdAt < b.createdAt ∨ (a.createdAt = b.createdAt ∧ a.runId ≤ b.runId)

/-- The first run of a selection, in queue order. -/
def earliest : List Run → Option Run
  | [] => none
  | run :: runs =>
      match earliest runs with
      | none => some run
      | some other => if QueuedBefore run other then some run else some other

theorem earliest_mem {runs : List Run} (first : earliest runs = some run) : run ∈ runs := by
  induction runs generalizing run with
  | nil => cases first
  | cons head tail ih =>
      simp only [earliest] at first
      cases rest : earliest tail with
      | none =>
          simp only [rest, Option.some.injEq] at first
          exact first ▸ List.mem_cons_self ..
      | some other =>
          simp only [rest] at first
          split at first
          · exact Option.some.inj first ▸ List.mem_cons_self ..
          · exact Option.some.inj first ▸ List.mem_cons_of_mem _ (ih rest)

/-- A target host of the run has a lock that has not expired. -/
abbrev Blocked (store : Store) (now : Nat) (run : Run) : Prop :=
  ∃ target ∈ store.targets.rows, target.runId = run.runId ∧
    ∃ lock ∈ store.locks.lookup target.hostId, now < lock.expiresAt

/-- The candidate row; `skipped` are the rows that other transactions have
locked and `SKIP LOCKED` passes over. -/
def candidate (store : Store) (now : Nat) (skipped : List Uuid) : Option Run :=
  earliest (store.runs.select fun run =>
    run.status = .queued ∧ ¬ Blocked store now run ∧ run.runId ∉ skipped)

/-- The candidate is a queued row that no unexpired lock blocks. -/
theorem candidate_spec {skipped : List Uuid} (chosen : candidate store now skipped = some run) :
    store.runs.lookup run.runId = some run ∧ run.status = .queued ∧ ¬ Blocked store now run :=
  have selected := Table.mem_select.mp (earliest_mem chosen)
  ⟨selected.1, selected.2.1, selected.2.2.1⟩

/-- The `UPDATE` of the claimed row. -/
def claimedBy (workerId : String) (now : Nat) (run : Run) : Run :=
  { run with
    status := .preparing
    claimedBy := some workerId
    claimedAt := some now
    startedAt := some now
    updatedAt := now }

@[simp] theorem claimedBy_runId (workerId : String) (now : Nat) (run : Run) :
    (claimedBy workerId now run).runId = run.runId := rfl

/-- The row that a claim writes for one host. -/
def runLock (runId : Uuid) (workerId : String) (now expiresAt : Nat) (host : Uuid) : HostLock where
  hostId := host
  holder := .run runId
  ownerId := workerId
  acquiredAt := now
  expiresAt := expiresAt

/-- The lock insert for the hosts in order: a free or an expired lock is taken,
any other row is left alone and not returned. -/
def lockHosts (now : Nat) (fresh : Uuid → HostLock) :
    List Uuid → Table HostLock.hostId → Table HostLock.hostId × Nat
  | [], locks => (locks, 0)
  | host :: hosts, locks =>
      if ∃ lock ∈ locks.lookup host, now < lock.expiresAt then
        lockHosts now fresh hosts locks
      else
        let rest := lockHosts now fresh hosts (locks.put (fresh host))
        (rest.1, rest.2 + 1)

/-- At most one row is returned for each host. -/
theorem lockHosts_count_le (now : Nat) (fresh : Uuid → HostLock) (hosts : List Uuid)
    (locks : Table HostLock.hostId) : (lockHosts now fresh hosts locks).2 ≤ hosts.length := by
  induction hosts generalizing locks with
  | nil => exact Nat.le_refl _
  | cons host hosts ih =>
      simp only [lockHosts, List.length_cons]
      split
      · exact Nat.le_succ_of_le (ih locks)
      · exact Nat.succ_le_succ (ih _)

/-- **A lock insert that returns every host took every host**: none of them was
under an unexpired lock, each has its new row, and no other row changed. -/
theorem lockHosts_spec {fresh : Uuid → HostLock}
    (names : ∀ host, (fresh host).hostId = host) {hosts : List Uuid}
    {locks : Table HostLock.hostId} (all : (lockHosts now fresh hosts locks).2 = hosts.length) :
    (∀ host ∈ hosts, (lockHosts now fresh hosts locks).1.lookup host = some (fresh host)) ∧
      (∀ host ∉ hosts, (lockHosts now fresh hosts locks).1.lookup host = locks.lookup host) ∧
      ∀ host ∈ hosts, ∀ lock, locks.lookup host = some lock → lock.expiresAt ≤ now := by
  induction hosts generalizing locks with
  | nil => simp [lockHosts]
  | cons host hosts ih =>
      have bound := lockHosts_count_le now fresh hosts
      by_cases busy : ∃ lock ∈ locks.lookup host, now < lock.expiresAt
      · simp only [lockHosts, busy, if_true, List.length_cons] at all
        have short := bound locks
        omega
      · simp only [lockHosts, busy, if_false, List.length_cons, Nat.add_right_cancel_iff] at all ⊢
        obtain ⟨taken, kept, free⟩ := ih all
        refine ⟨?_, ?_, ?_⟩
        · intro other member
          by_cases tail : other ∈ hosts
          · exact taken other tail
          · obtain rfl : other = host := by simpa [tail] using member
            rw [kept other tail, Table.lookup_put, if_pos (names other)]
        · intro other absent
          simp only [List.mem_cons, not_or] at absent
          rw [kept other absent.2, Table.lookup_put, if_neg]
          rw [names host]
          exact Ne.symm absent.1
        · intro other member lock found
          by_cases same : other = host
          · subst same
            exact Nat.not_lt.mp fun unexpired => busy ⟨lock, found, unexpired⟩
          · have tail : other ∈ hosts := by simpa [same] using member
            refine free other tail lock ?_
            rw [Table.lookup_put, if_neg, found]
            rw [names host]
            exact Ne.symm same

/-- The host ids of a run's targets, `ORDER BY host_id`. -/
def targetHosts (store : Store) (runId : Uuid) : List Uuid :=
  ((store.targets.select fun target => target.runId = runId).map
    RunTarget.hostId).insertionSort (· ≤ ·)

theorem mem_targetHosts {runId host : Uuid} :
    host ∈ targetHosts store runId ↔
      ∃ id target, store.targets.lookup id = some target ∧ target.runId = runId ∧
        target.hostId = host := by
  simp only [targetHosts, List.mem_insertionSort, List.mem_map, Table.mem_select]
  constructor
  · rintro ⟨target, ⟨found, ofRun⟩, onHost⟩
    exact ⟨target.runTargetId, target, found, ofRun, onHost⟩
  · rintro ⟨id, target, found, ofRun, onHost⟩
    exact ⟨target, ⟨Table.lookup_of_mem (Table.mem_of_lookup found), ofRun⟩, onHost⟩

/-- `ClaimCollisionError`. -/
inductive ClaimError where
  | claimCollision
  deriving DecidableEq

/-- `claim_next`: the locks of all hosts of the chosen run, or none. -/
def claimNext (store : Store) (workerId : String) (now leaseExpiresAt : Nat)
    (skipped : List Uuid) : Except ClaimError (Option (Run × Store)) :=
  match candidate store now skipped with
  | none => .ok none
  | some run =>
      let hosts := targetHosts store run.runId
      let locked := lockHosts now (runLock run.runId workerId now leaseExpiresAt) hosts store.locks
      if locked.2 = hosts.length then
        .ok (some (claimedBy workerId now run, { store with
          runs := store.runs.update (fun r => r.runId = run.runId)
            (claimedBy workerId now) (claimedBy_runId workerId now)
          locks := locked.1 }))
      else .error .claimCollision

/-- **What a successful claim does**: a queued row moves to `PREPARING` under the
worker, all its target hosts, none of which was under an unexpired lock, are
locked for it, and nothing else changes. -/
theorem claimNext_claimed {workerId : String} {expiresAt : Nat} {skipped : List Uuid}
    (done : claimNext store workerId now expiresAt skipped = .ok (some (run, store'))) :
    ∃ old locks, store.runs.lookup old.runId = some old ∧ old.status = .queued ∧
      run = claimedBy workerId now old ∧
      (∀ host ∈ targetHosts store old.runId,
        locks.lookup host = some (runLock old.runId workerId now expiresAt host)) ∧
      (∀ host ∉ targetHosts store old.runId, locks.lookup host = store.locks.lookup host) ∧
      (∀ host ∈ targetHosts store old.runId, ∀ lock, store.locks.lookup host = some lock →
        lock.expiresAt ≤ now) ∧
      store' = { store with
        runs := store.runs.update (fun r => r.runId = old.runId) (claimedBy workerId now)
          (claimedBy_runId workerId now)
        locks := locks } := by
  unfold claimNext at done
  cases chosen : candidate store now skipped with
  | none => simp [chosen] at done
  | some old =>
      simp only [chosen] at done
      split at done
      · rename_i all
        obtain ⟨found, queued, _⟩ := candidate_spec chosen
        obtain ⟨taken, kept, free⟩ := lockHosts_spec (fun _ => rfl) all
        simp only [Except.ok.injEq, Option.some.injEq, Prod.mk.injEq] at done
        exact ⟨old, _, found, queued, done.1.symm, taken, kept, free, done.2.symm⟩
      · cases done

/-! ## Recovery -/

/-- The worker ids whose lease rows the recovery deletes. -/
abbrev StaleWorker (store : Store) (now : Nat) (workerId : String) : Prop :=
  ∃ lease ∈ store.leases.lookup workerId, lease.expiresAt ≤ now

/-- The rows that the recovery interrupts. -/
abbrev Stranded (store : Store) (now : Nat) (run : Run) : Prop :=
  (∃ workerId ∈ run.claimedBy, StaleWorker store now workerId) ∧ run.status.active

/-- `run_id IN (SELECT run_id FROM interrupted)`. -/
abbrev StrandedId (store : Store) (now : Nat) (runId : Uuid) : Prop :=
  ∃ run ∈ store.runs.lookup runId, Stranded store now run

/-- A run as `recover_stale` ends it. -/
def interruptedBy (now : Nat) (run : Run) : Run :=
  { run with
    status := .interrupted
    finishedAt := some now
    updatedAt := now
    failureCode := some "WORKER_LEASE_EXPIRED"
    failureMessage := some "worker lease expired during execution" }

@[simp] theorem interruptedBy_runId (now : Nat) (run : Run) :
    (interruptedBy now run).runId = run.runId := rfl

/-- `recover_stale`, and how many runs it has ended. -/
def recoverStale (store : Store) (now : Nat) : Nat × Store :=
  ((store.runs.select (Stranded store now)).length,
    { store with
      leases := store.leases.delete fun lease => lease.expiresAt ≤ now
      runs := store.runs.update (Stranded store now) (interruptedBy now)
        (interruptedBy_runId now)
      targets := store.targets.update
        (fun target => StrandedId store now target.runId ∧ target.status.open?)
        (fun target => { target with status := .interrupted, finishedAt := some now }) fun _ => rfl
      locks := store.locks.delete fun lock =>
        lock.expiresAt ≤ now ∨ ∃ runId ∈ lock.runId?, StrandedId store now runId })

section RecoverStale

variable (store : Store) (now : Nat)

/-- The run rows after a recovery. -/
theorem recoverStale_runs (id : Uuid) :
    (recoverStale store now).2.runs.lookup id = (store.runs.lookup id).map fun run =>
      if Stranded store now run then interruptedBy now run else run := by
  simp only [recoverStale, Table.lookup_update]

/-- The target rows after a recovery. -/
theorem recoverStale_targets (id : Uuid) :
    (recoverStale store now).2.targets.lookup id = (store.targets.lookup id).map fun target =>
      if StrandedId store now target.runId ∧ target.status.open? then
        { target with status := .interrupted, finishedAt := some now }
      else target := by
  simp only [recoverStale, Table.lookup_update]

/-- The lease rows that survive a recovery. -/
theorem recoverStale_leases {id : String} {lease : WorkerLease} :
    (recoverStale store now).2.leases.lookup id = some lease ↔
      store.leases.lookup id = some lease ∧ ¬ lease.expiresAt ≤ now := by
  simp only [recoverStale, Table.lookup_delete_eq_some]

/-- The lock rows that survive a recovery. -/
theorem recoverStale_locks {host : Uuid} {lock : HostLock} :
    (recoverStale store now).2.locks.lookup host = some lock ↔
      store.locks.lookup host = some lock ∧
        ¬ (lock.expiresAt ≤ now ∨ ∃ runId ∈ lock.runId?, StrandedId store now runId) := by
  simp only [recoverStale, Table.lookup_delete_eq_some]

end RecoverStale

/-! ## Executing -/

/-- `mark_running`. -/
def markRunning (store : Store) (runId : Uuid) (now : Nat) : Store :=
  { store with
    runs := store.runs.update (fun run => run.runId = runId ∧ run.status = .preparing)
      (fun run => { run with status := .running, updatedAt := now }) fun _ => rfl
    targets := store.targets.update
      (fun target => target.runId = runId ∧ target.status = .pending)
      (fun target => { target with status := .running, startedAt := some now }) fun _ => rfl }

/-- The run rows once one is marked running. -/
theorem markRunning_runs (store : Store) (runId : Uuid) (now : Nat) (id : Uuid) :
    (markRunning store runId now).runs.lookup id = (store.runs.lookup id).map fun run =>
      if run.runId = runId ∧ run.status = .preparing then
        { run with status := .running, updatedAt := now }
      else run := by
  simp only [markRunning, Table.lookup_update]

/-- The target rows once a run is marked running. -/
theorem markRunning_targets (store : Store) (runId : Uuid) (now : Nat) (id : Uuid) :
    (markRunning store runId now).targets.lookup id = (store.targets.lookup id).map fun target =>
      if target.runId = runId ∧ target.status = .pending then
        { target with status := .running, startedAt := some now }
      else target := by
  simp only [markRunning, Table.lookup_update]

/-- `fallback_target_status`. -/
def fallbackTargetStatus : RunStatus → RunTargetStatus
  | .canceled => .canceled
  | .interrupted => .interrupted
  | .succeeded => .skipped
  | .partly => .skipped
  | _ => .failed

/-- What a worker reports at the end of a run. -/
structure Outcome where
  status : RunStatus
  returnCode : Option Int := none
  summary : Dict := []
  failureCode : Option String := none
  failureMessage : Option String := none

/-- The `UPDATE` of the finished row. -/
def finishedWith (outcome : Outcome) (now : Nat) (run : Run) : Run :=
  { run with
    status := outcome.status
    returnCode := outcome.returnCode
    summary := outcome.summary
    failureCode := outcome.failureCode
    failureMessage := outcome.failureMessage
    finishedAt := some now
    updatedAt := now }

@[simp] theorem finishedWith_runId (outcome : Outcome) (now : Nat) (run : Run) :
    (finishedWith outcome now run).runId = run.runId := rfl

/-- `claimed_by = worker AND status IN ('PREPARING', 'RUNNING')`. -/
abbrev OwnedBy (workerId : String) (run : Run) : Prop :=
  run.claimedBy = some workerId ∧ run.status.active

/-- `finish`: a run ends only for the worker that owns it. -/
def finish (store : Store) (runId : Uuid) (workerId : String) (outcome : Outcome) (now : Nat) :
    Option Run × Store :=
  (((store.runs.lookup runId).filter fun run => decide (OwnedBy workerId run)).map
      (finishedWith outcome now),
    { store with
      targets := store.targets.update
        (fun target => target.runId = runId ∧ target.status.open?)
        (fun target =>
          { target with
            status := fallbackTargetStatus outcome.status
            finishedAt := some now }) fun _ => rfl
      runs := store.runs.update (fun run => run.runId = runId ∧ OwnedBy workerId run)
        (finishedWith outcome now) (finishedWith_runId outcome now)
      locks := store.locks.delete fun lock => lock.runId? = some runId
      leases := store.leases.update
        (fun lease => lease.workerId = workerId ∧ lease.runId = some runId)
        (fun lease => { lease with runId := none }) fun _ => rfl })

/-- The fallback closes a target, whatever the final status. -/
theorem fallbackTargetStatus_closed (status : RunStatus) :
    (fallbackTargetStatus status).open? = false := by
  cases status <;> rfl

section Finish

variable (store : Store) (runId : Uuid) (workerId : String) (outcome : Outcome) (now : Nat)

/-- The target rows after the end of a run. -/
theorem finish_targets (id : Uuid) :
    (finish store runId workerId outcome now).2.targets.lookup id =
      (store.targets.lookup id).map fun target =>
        if target.runId = runId ∧ target.status.open? then
          { target with
            status := fallbackTargetStatus outcome.status
            finishedAt := some now }
        else target := by
  simp only [finish, Table.lookup_update]

/-- The lease rows after the end of a run: no expiry changes. -/
theorem finish_leases (id : String) :
    (finish store runId workerId outcome now).2.leases.lookup id =
      (store.leases.lookup id).map fun lease =>
        if lease.workerId = workerId ∧ lease.runId = some runId then { lease with runId := none }
        else lease := by
  simp only [finish, Table.lookup_update]

/-- The lock rows that survive the end of a run. -/
theorem finish_locks {host : Uuid} {lock : HostLock} :
    (finish store runId workerId outcome now).2.locks.lookup host = some lock ↔
      store.locks.lookup host = some lock ∧ ¬ lock.runId? = some runId := by
  simp only [finish, Table.lookup_delete_eq_some]

end Finish

/-- The result columns that `finish_target` writes. -/
structure TargetResult where
  status : RunTargetStatus
  returnCode : Option Int := none
  stdout : String := ""
  stderr : String := ""
  result : Dict := []
  outputTruncated : Bool := false
  changedCount : Nat := 0
  failedCount : Nat := 0
  unreachableCount : Nat := 0

/-- The `UPDATE` of the target row. -/
def withResult (result : TargetResult) (now : Nat) (target : RunTarget) : RunTarget :=
  { target with
    status := result.status
    returnCode := result.returnCode
    stdout := result.stdout
    stderr := result.stderr
    result := result.result
    outputTruncated := result.outputTruncated
    changedCount := result.changedCount
    failedCount := result.failedCount
    unreachableCount := result.unreachableCount
    finishedAt := some now }

@[simp] theorem withResult_runTargetId (result : TargetResult) (now : Nat) (target : RunTarget) :
    (withResult result now target).runTargetId = target.runTargetId := rfl

/-- The row is selected by its key alone. -/
def finishTarget (store : Store) (runTargetId : Uuid) (result : TargetResult) (now : Nat) :
    Store :=
  { store with
    targets := store.targets.update (fun target => target.runTargetId = runTargetId)
      (withResult result now) (withResult_runTargetId result now) }

/-- The target rows after one reports its result. -/
theorem finishTarget_targets (store : Store) (runTargetId : Uuid) (result : TargetResult)
    (now : Nat) (id : Uuid) :
    (finishTarget store runTargetId result now).targets.lookup id =
      if runTargetId = id then (store.targets.lookup id).map (withResult result now)
      else store.targets.lookup id := by
  simp only [finishTarget, Table.lookup_update_at]

/-! ## Events -/

/-- Take the next sequence number of the run, then insert the event with it.
A missing run, a taken event id and a taken sequence number are errors. -/
def appendEvent (store : Store) (event : RunEvent) : Option (RunEvent × Store) :=
  match store.runs.lookup event.runId with
  | none => none
  | some run =>
      let row := { event with sequence := run.nextEventSequence }
      if ∃ other ∈ store.events.rows, other.runId = row.runId ∧ other.sequence = row.sequence then
        none
      else
        (store.events.insert? row).map fun events => (row, { store with
          runs := store.runs.update (fun r => r.runId = event.runId)
            (fun r => { r with nextEventSequence := r.nextEventSequence + 1 }) fun _ => rfl
          events := events })

/-- An appended event takes the next number of its run, which no event had. -/
theorem appendEvent_spec {store store' : Store} {event row : RunEvent}
    (done : appendEvent store event = some (row, store')) :
    ∃ run, store.runs.lookup event.runId = some run ∧
      row = { event with sequence := run.nextEventSequence } ∧
      store.events.lookup event.runEventId = none ∧
      (∀ id other, store.events.lookup id = some other →
        ¬ (other.runId = event.runId ∧ other.sequence = run.nextEventSequence)) ∧
      store' = { store with
        runs := store.runs.update (fun r => r.runId = event.runId)
          (fun r => { r with nextEventSequence := r.nextEventSequence + 1 }) fun _ => rfl
        events := store.events.put row } := by
  unfold appendEvent at done
  cases found : store.runs.lookup event.runId with
  | none => simp [found] at done
  | some run =>
      simp only [found] at done
      split at done
      · cases done
      · rename_i free
        obtain ⟨events, inserted, same⟩ := Option.map_eq_some_iff.mp done
        obtain ⟨unused, rfl⟩ := Table.insert?_eq_some.mp inserted
        simp only [Prod.mk.injEq] at same
        obtain ⟨rfl, rfl⟩ := same
        refine ⟨run, rfl, rfl, unused, ?_, rfl⟩
        intro id other present clash
        exact free ⟨other, Table.mem_of_lookup present, clash⟩

/-- What an appended event does to the store. -/
structure Appends (store : Store) (event : RunEvent) (run : Run) (store' : Store) : Prop where
  found : store.runs.lookup event.runId = some run
  eventFree : store.events.lookup event.runEventId = none
  numberFree : ∀ id other, store.events.lookup id = some other →
    ¬ (other.runId = event.runId ∧ other.sequence = run.nextEventSequence)
  runs : ∀ id, store'.runs.lookup id =
    if event.runId = id then some { run with nextEventSequence := run.nextEventSequence + 1 }
    else store.runs.lookup id
  events : store'.events = store.events.put { event with sequence := run.nextEventSequence }
  targets : store'.targets = store.targets
  secretInputs : store'.secretInputs = store.secretInputs
  leases : store'.leases = store.leases
  locks : store'.locks = store.locks
  shells : store'.shells = store.shells

theorem appends_of_appendEvent {store store' : Store} {event row : RunEvent}
    (done : appendEvent store event = some (row, store')) :
    ∃ run, Appends store event run store' := by
  obtain ⟨run, found, rfl, eventFree, numberFree, rfl⟩ := appendEvent_spec done
  refine ⟨run, found, eventFree, numberFree, ?_, rfl, rfl, rfl, rfl, rfl, rfl⟩
  intro id
  rw [Table.lookup_update_at]
  by_cases same : event.runId = id
  · subst same
    simp [found]
  · simp [same]

/-! ## Secret inputs -/

/-- `add_secret_inputs`. -/
def addSecretInputs (store : Store) (input : RunSecretInput) : Option Store :=
  (store.secretInputs.insert? input).map fun rows => { store with secretInputs := rows }

/-- `DELETE … RETURNING`. -/
def consumeSecretInputs (store : Store) (runId : Uuid) : Option (RunSecretInput × Store) :=
  (store.secretInputs.lookup runId).map fun input =>
    (input, { store with secretInputs := store.secretInputs.delete fun row => row.runId = runId })

end OpsComposer.Repositories.RunRepository
