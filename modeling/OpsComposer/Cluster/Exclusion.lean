import OpsComposer.Cluster.Locks

/-!
# One live execution on a host

A live execution is an active run whose worker has an unexpired lease, or an
`ACTIVE` web-shell session whose own lease has not expired.  Both are kept off a
host by the lock rows alone, so the exclusion is that of a leased lock: it holds
as long as the lock row of every live execution outlives its lease
(`OpsComposer.Foundations.View.Guarded`).

A heartbeat renews the lease without asking for the lock rows: it refreshes
those that are still there, and leaves the lease renewed if there are none.  An
owner that stalls past its lease, while its row expires and is taken over, comes
back to life on a host that another execution holds.

* `RenewsHeldLocks` — a renewal finds the lock rows of what it renews;
* `guarded_of_effect` — every step that meets the condition keeps the rows ahead
  of the leases;
* `exclusive_of_renewsHeldLocks` — then no host has two live executions;
* `exclusive_fails` — the run that shows the defect.
-/

set_option autoImplicit false

namespace OpsComposer.Cluster

open Domain Foundations Repositories Services

/-! ## Executions and their leases -/

/-- An active run targets the host, and the lease of its worker has this expiry. -/
def RunHolds (store : Store) (runId host : Uuid) (expiry : Nat) : Prop :=
  ∃ run workerId lease, store.runs.lookup runId = some run ∧ run.status.active = true ∧
    host ∈ RunRepository.targetHosts store runId ∧ run.claimedBy = some workerId ∧
    store.leases.lookup workerId = some lease ∧ lease.expiresAt = expiry

/-- An `ACTIVE` session is on the host, under a lease with this expiry. -/
def ShellHolds (store : Store) (id host : Uuid) (expiry : Nat) : Prop :=
  ∃ session, store.shells.lookup id = some session ∧ session.state = .active ∧
    session.hostId = host ∧ session.leaseExpiresAt = expiry

/-- The executions of a store as holders of hosts. -/
def executions (store : Store) : View LockHolder Uuid Nat where
  held
    | .run runId => RunHolds store runId
    | .shell id => ShellHolds store id
  locked host holder expiry := ∃ lock, store.locks.lookup host = some lock ∧
    lock.holder = holder ∧ lock.expiresAt = expiry
  one := by
    rintro host e e' x x' ⟨lock, found, holder, _⟩ ⟨lock', found', holder', _⟩
    obtain rfl := Option.some.inj (found.symm.trans found')
    exact holder.symm.trans holder'

/-- A live execution on a host. -/
def Live (world : World) (holder : LockHolder) (host : Uuid) : Prop :=
  (executions world.store).Live world.clock holder host

/-- The worker process whose lease an action renews. -/
def Action.renewing? (world : World) : Action → Option WorkerProcess
  | .worker processId action => if action.renews then world.workers.lookup processId else none
  | _ => none

/-- The session, with the owner, that an action refreshes. -/
def Action.refreshing? : Action → Option (Uuid × String)
  | .shell (.heartbeat webShellSessionId ownerId _) => some (webShellSessionId, ownerId)
  | _ => none

/-- **The condition**: a worker that renews its lease still has the lock rows of
all target hosts of the active runs claimed under its id, and a web shell that
refreshes its session still has the lock row of its host. -/
def RenewsHeldLocks (world : World) (action : Action) : Prop :=
  (∀ worker ∈ action.renewing? world, ∀ run ∈ world.store.runs.rows, run.status.active = true →
    run.claimedBy = some worker.workerId →
    ∀ host ∈ RunRepository.targetHosts world.store run.runId,
      ∃ lock ∈ world.store.locks.lookup host, lock.holder = .run run.runId) ∧
  ∀ refreshing ∈ action.refreshing?, ∀ session ∈ world.store.shells.lookup refreshing.1,
    WebShellRepository.Refreshable world.store refreshing.1 refreshing.2 world.clock session →
    ∃ lock ∈ world.store.locks.lookup session.hostId, lock.holder = .shell refreshing.1

instance (world : World) (action : Action) : Decidable (RenewsHeldLocks world action) :=
  inferInstanceAs (Decidable (_ ∧ _))

/-! ## Leases and target hosts under a step -/

variable {action : Action} {lock : HostLock} {now : Nat} {store : Store} {workerId : String}
  {host runId : Uuid} {world : World}

/-- A step that renews no lease leaves every lease that stays with its expiry. -/
theorem lease_of_effect (effect : Effect world action store) (renewsNot : action.renews ≠ true)
    {lease' : WorkerLease} (found : store.leases.lookup workerId = some lease') :
    ∃ lease, world.store.leases.lookup workerId = some lease ∧
      lease.expiresAt = lease'.expiresAt := by
  have unchanged : store.leases = world.store.leases →
      ∃ lease, world.store.leases.lookup workerId = some lease ∧
        lease.expiresAt = lease'.expiresAt :=
    fun same => ⟨lease', same ▸ found, rfl⟩
  cases effect with
  | quiet same | start _ _ same | report _ _ _ _ _ same | closeShell same | dropShells _ same =>
      exact unchanged same.leases
  | create creates => exact unchanged creates.leases
  | cancel cancels => exact unchanged cancels.leases
  | recover _ _ same =>
      rw [same.leases] at found
      exact ⟨lease', ((RunRepository.recoverStale_leases _ _).mp found).1, rfl⟩
  | renew _ renews _ => exact absurd renews renewsNot
  | claim _ _ => exact absurd rfl renewsNot
  | append _ _ _ appends => exact unchanged appends.leases
  | finish _ _ _ _ finishes =>
      rw [finishes.leases, RunRepository.finish_leases] at found
      obtain ⟨lease, before, rfl⟩ := Option.map_eq_some_iff.mp found
      refine ⟨lease, before, ?_⟩
      split <;> rfl
  | openShell opens => exact unchanged opens.leases
  | activateShell activates => exact unchanged activates.leases
  | refreshShell => exact unchanged rfl

/-- The hosts of a run that has left the queue do not become more. -/
theorem mem_targetHosts_of_effect (inv : LifecycleInv world) (effect : Effect world action store)
    {run : Run} (found : store.runs.lookup runId = some run) (unqueued : run.status ≠ .queued)
    (member : host ∈ RunRepository.targetHosts store runId) :
    host ∈ RunRepository.targetHosts world.store runId := by
  obtain ⟨id, target', after, rfl, rfl⟩ := RunRepository.mem_targetHosts.mp member
  cases before : world.store.targets.lookup id with
  | none =>
      obtain ⟨_, row, present, queued⟩ := newTarget_of_effect effect after before
      obtain rfl := Option.some.inj (found.symm.trans present)
      exact absurd queued unqueued
  | some target =>
      obtain ⟨row, present⟩ := inv.rows.ofRun id target before
      obtain ⟨row', present', _⟩ := runChange_of_effect effect present
      obtain ⟨target'', after', change⟩ :=
        targetChange_of_effect inv.rows inv.claimed effect before present present'
      obtain rfl := Option.some.inj (after.symm.trans after')
      exact RunRepository.mem_targetHosts.mpr
        ⟨id, target, before, change.ids.1.symm, change.ids.2.symm⟩

/-- A run that is active after a step that renews no lease held the same hosts
before it, under the same lease. -/
theorem runHolds_of_effect (inv : LifecycleInv world) (effect : Effect world action store)
    (renewsNot : action.renews ≠ true) {expiry : Nat} (holds : RunHolds store runId host expiry) :
    RunHolds world.store runId host expiry := by
  obtain ⟨run', workerId, lease', found', active, member, byWorker, leased, until_⟩ := holds
  have unqueued : run'.status ≠ .queued := by
    intro queued
    rw [queued] at active
    cases active
  obtain ⟨run, found, wasActive, same⟩ := active_of_effect effect
    (fun claims => renewsNot (Action.renews_of_claims claims)) found' active
  obtain ⟨lease, before, sameExpiry⟩ := lease_of_effect effect renewsNot leased
  exact ⟨run, workerId, lease, found, wasActive,
    mem_targetHosts_of_effect inv effect found' unqueued member, same.symm.trans byWorker,
    before, sameExpiry.trans until_⟩

/-! ## Lock rows under a step -/

/-- An unexpired lock of a run that stays active stays, under any step that
renews no lease. -/
theorem runLock_kept_of_effect (effect : Effect world action store)
    (renewsNot : action.renews ≠ true) {run' : Run}
    (found : world.store.locks.lookup host = some lock) (holder : lock.holder = .run runId)
    (unexpired : world.clock < lock.expiresAt) (present : store.runs.lookup runId = some run')
    (active : run'.status.active = true) : store.locks.lookup host = some lock := by
  have noShell : lock.shellId? = none := by simp [HostLock.shellId?, holder]
  have noGone : ∀ Gone : WebShellSession → Prop, ∀ [DecidablePred Gone],
      (WebShellRepository.deleteWhere world.store Gone).locks.lookup host = some lock := by
    intro Gone _
    refine lock_of_deleteWhere.mpr ⟨found, ?_⟩
    simp [noShell]
  cases effect with
  | quiet same => rw [same.locks, found]
  | create creates => rw [creates.locks, found]
  | cancel cancels => rw [cancels.locks, found]
  | recover _ _ same =>
      rw [same.locks]
      refine (RunRepository.recoverStale_locks _ _).mpr ⟨found, ?_⟩
      rintro (expired | ⟨id, held, run, before, stranded⟩)
      · omega
      · obtain rfl := LockHolder.run.inj ((HostLock.runId?_eq_some.mp held).symm.trans holder)
        rw [same.runs, RunRepository.recoverStale_runs, before, Option.map_some,
          if_pos stranded] at present
        obtain rfl := Option.some.inj present
        cases active
  | renew _ renews _ => exact absurd renews renewsNot
  | claim _ _ => exact absurd rfl renewsNot
  | start _ _ same | report _ _ _ _ _ same | closeShell same =>
      rw [same.locks]
      exact found
  | append _ _ _ appends => rw [appends.locks, found]
  | finish _ _ ends _ finishes =>
      rw [finishes.locks]
      refine (RunRepository.finish_locks _ _ _ _ _).mpr ⟨found, ?_⟩
      intro held
      obtain rfl := LockHolder.run.inj ((HostLock.runId?_eq_some.mp held).symm.trans holder)
      rw [finishes.runs, if_pos rfl] at present
      obtain rfl := Option.some.inj present
      cases (RunStatus.not_active_of_terminal ends).symm.trans active
  | openShell opens =>
      rw [opens.locks, Table.lookup_put_of_ne, noGone]
      rintro rfl
      have expired := opens.hostFree lock (noGone _)
      omega
  | activateShell activates =>
      rw [activates.locks, found, Option.map_some, if_neg]
      intro handed
      cases noShell.symm.trans handed.1
  | refreshShell =>
      simp only [WebShellRepository.heartbeat, Table.lookup_update, found, Option.map_some]
      rw [if_neg]
      rintro ⟨⟨session, _, _, named⟩, _⟩
      cases noShell.symm.trans named
  | dropShells Gone same =>
      rw [same.locks]
      exact noGone Gone

/-- The lock of a run whose worker renews its lease is renewed with it. -/
theorem lock_of_heartbeat_self {runId : Option Uuid} {expiresAt : Nat} {id : Uuid}
    (found : store.locks.lookup host = some lock) (holder : lock.holder = .run id)
    (owned : lock.ownerId = workerId) :
    (RunRepository.heartbeat store workerId runId now expiresAt).locks.lookup host =
      some { lock with expiresAt := expiresAt } := by
  have refreshed : RunRepository.RefreshedBy workerId lock := by
    refine ⟨owned, ?_⟩
    rw [HostLock.runId?_eq_some.mpr holder]
    rfl
  rw [RunRepository.heartbeat_locks, found, Option.map_some, if_pos refreshed]

/-- A heartbeat leaves the locks of others alone. -/
theorem lock_of_heartbeat_other {runId : Option Uuid} {expiresAt : Nat}
    (found : store.locks.lookup host = some lock)
    (other : lock.ownerId ≠ workerId ∨ lock.runId? = none) :
    (RunRepository.heartbeat store workerId runId now expiresAt).locks.lookup host = some lock := by
  rw [RunRepository.heartbeat_locks, found, Option.map_some, if_neg]
  rintro ⟨owned, isRun⟩
  rcases other with elsewhere | noRun
  · exact elsewhere owned
  · rw [noRun] at isRun
    cases isRun

/-- A claim takes no unexpired lock. -/
theorem lock_of_claims {settings : WorkerSettings} {store' : Store} {old : Run}
    (claims : WorkerCoordinator.Claims settings workerId store now old store')
    (found : (RunRepository.heartbeat store workerId none now
      (settings.leaseUntil now)).locks.lookup host = some lock) (unexpired : now < lock.expiresAt) :
    store'.locks.lookup host = some lock := by
  by_cases member : host ∈ RunRepository.targetHosts store old.runId
  · have expired := claims.free host member lock found
    omega
  · rw [claims.kept host member]
    exact found

/-- The lock of a session that is not deleted stays. -/
theorem lock_of_stays {Gone : WebShellSession → Prop} [DecidablePred Gone]
    {id : Uuid} {session : WebShellSession}
    (found : store.locks.lookup host = some lock) (holder : lock.holder = .shell id)
    (present : store.shells.lookup id = some session) (stays : ¬ Gone session) :
    (WebShellRepository.deleteWhere store Gone).locks.lookup host = some lock := by
  refine lock_of_deleteWhere.mpr ⟨found, ?_⟩
  rintro ⟨other, named, session', stored, gone⟩
  obtain rfl := LockHolder.shell.inj ((HostLock.shellId?_eq_some.mp named).symm.trans holder)
  obtain rfl := Option.some.inj (present.symm.trans stored)
  exact stays gone

/-! ## Every step that renews held locks keeps the view guarded -/

section Guarded

variable {world : World} {action : Action} {store : Store} (locks : LocksInv world)
  (renewsHeld : RenewsHeldLocks world action)

variable {expiry : Nat} {host : Uuid}

/-- A worker that renews its lease finds its lock rows, and renews them. -/
theorem heartbeat_locks_of_renewsHeld {worker : WorkerProcess} {work : WorkerAction}
    (locks : LocksInv world) (renewsHeld : RenewsHeldLocks world (.worker worker.processId work))
    (found : world.workers.lookup worker.processId = some worker) (renews : work.renews = true)
    {runId : Uuid} {run : Run} (present : world.store.runs.lookup runId = some run)
    (active : run.status.active = true) (byWorker : run.claimedBy = some worker.workerId)
    (member : host ∈ RunRepository.targetHosts world.store runId) (held : Option Uuid)
    (expiresAt : Nat) :
    ∃ lock, (RunRepository.heartbeat world.store worker.workerId held world.clock
        expiresAt).locks.lookup host = some lock ∧ lock.holder = .run runId ∧
      lock.expiresAt = expiresAt := by
  have renewing : worker ∈ (Action.worker worker.processId work).renewing? world := by
    rw [Action.renewing?, if_pos renews]
    exact found
  have named : run.runId = runId := Table.key_of_lookup present
  rw [← named] at member
  obtain ⟨lock, before, holder⟩ := renewsHeld.1 worker renewing run (Table.mem_of_lookup present)
    active byWorker host member
  rw [named] at holder
  obtain ⟨row, present', _, byOwner⟩ := locks.runs host lock runId before holder
  obtain rfl := Option.some.inj (present.symm.trans present')
  have owned : lock.ownerId = worker.workerId :=
    Option.some.inj (byOwner.symm.trans byWorker)
  exact ⟨_, lock_of_heartbeat_self before holder owned, holder, rfl⟩

/-- A shell that refreshes its session has both rows renewed, or neither. -/
theorem shells_covered_refresh {webShellSessionId : Uuid} {ownerId : String}
    {expiresAt lastActivityAt : Nat} (locks : LocksInv world)
    (renewsHeld : RenewsHeldLocks world
      (.shell (.heartbeat webShellSessionId ownerId lastActivityAt)))
    {id : Uuid}
    (holds : ShellHolds (WebShellRepository.heartbeat world.store webShellSessionId ownerId
      world.clock expiresAt lastActivityAt).2 id host expiry) :
    View.Covered (executions world.store)
      (executions (WebShellRepository.heartbeat world.store webShellSessionId ownerId world.clock
        expiresAt lastActivityAt).2) world.clock (.shell id) host expiry := by
  obtain ⟨session', found', active, onHost, until_⟩ := holds
  simp only [WebShellRepository.heartbeat, Table.lookup_update] at found'
  obtain ⟨session, present, rfl⟩ := Option.map_eq_some_iff.mp found'
  have named := Table.key_of_lookup present
  by_cases refreshable : WebShellRepository.Refreshable world.store webShellSessionId ownerId
    world.clock session
  · -- a refreshed session finds its lock row, and both get one expiry
    rw [if_pos refreshable] at onHost until_
    obtain rfl : id = webShellSessionId := named.symm.trans refreshable.1
    obtain ⟨lock, before, holder⟩ := renewsHeld.2 (id, ownerId) rfl session present refreshable
    obtain ⟨row, present', _, byOwner⟩ := locks.shells session.hostId lock id before holder
    obtain rfl := Option.some.inj (present.symm.trans present')
    have owner : lock.ownerId = ownerId := by
      have activated : session.state ≠ .pending := by
        rw [refreshable.2.2.1]
        decide
      exact Option.some.inj ((byOwner activated).symm.trans refreshable.2.1)
    have refreshed : WebShellRepository.RefreshableLock world.store id ownerId world.clock
        lock := by
      refine ⟨⟨session, Table.mem_of_lookup present, refreshable, ?_⟩, owner⟩
      rw [HostLock.shellId?_eq_some.mpr holder, named]
    have onLock : world.store.locks.lookup host = some lock :=
      (show session.hostId = host from onHost) ▸ before
    refine .inr ⟨expiry, ⟨{ lock with expiresAt := expiry }, ?_, holder, rfl⟩, Nat.le_refl _⟩
    simp only [WebShellRepository.heartbeat, Table.lookup_update, onLock, Option.map_some]
    rw [if_pos refreshed, ← until_]
  · rw [if_neg refreshable] at active onHost until_
    refine .inl ⟨⟨session, present, active, onHost, until_⟩, ?_⟩
    rintro x ⟨lock, before, holder, rfl⟩ _
    refine ⟨lock, ?_, holder, rfl⟩
    simp only [WebShellRepository.heartbeat, Table.lookup_update, before, Option.map_some]
    rw [if_neg]
    rintro ⟨⟨other, stored, isRefreshable, ofOther⟩, _⟩
    have sameId : other.webShellSessionId = id := LockHolder.shell.inj
      ((HostLock.shellId?_eq_some.mp ofOther).symm.trans holder)
    have same := Table.lookup_of_mem stored
    rw [sameId] at same
    obtain rfl := Option.some.inj (present.symm.trans same)
    exact refreshable isRefreshable

include locks renewsHeld

/-- The runs that are live after a step still have their lock rows. -/
theorem runs_covered (inv : LifecycleInv world) (effect : Effect world action store) {runId : Uuid}
    (holds : RunHolds store runId host expiry) :
    View.Covered (executions world.store) (executions store) world.clock (.run runId) host
      expiry := by
  by_cases renews : action.renews = true
  · obtain ⟨run', workerId, lease', found', active, member, byWorker, leased, until_⟩ := holds
    cases effect with
    | quiet same =>
        have quiet : Effect world action store := .quiet same
        refine .inl ⟨⟨run', workerId, lease', by rw [← same.runs, found'], active, ?_, byWorker,
          by rw [← same.leases, leased], until_⟩, ?_⟩
        · exact mem_targetHosts_of_effect inv quiet found'
            (fun queued => by rw [queued] at active; cases active) member
        · rintro x ⟨lock, before, owned⟩ _
          exact ⟨lock, by rw [same.locks, before], owned⟩
    | @renew worker _ _ _ found renewing same =>
        rw [same.runs] at found'
        rw [same.leases, RunRepository.heartbeat_leases] at leased
        have hosts : host ∈ RunRepository.targetHosts world.store runId :=
          mem_targetHosts_of_effect inv (.renew found renewing same)
            (by rw [same.runs]; exact found')
            (fun queued => by rw [queued] at active; cases active) member
        split at leased
        · rename_i self
          obtain rfl := Option.some.inj leased
          subst self
          obtain ⟨lock, after, holder, expires⟩ := heartbeat_locks_of_renewsHeld locks renewsHeld
            found renewing found' active byWorker hosts _ _
          exact .inr ⟨expiry, ⟨lock, by rw [same.locks]; exact after, holder,
            expires.trans until_⟩, Nat.le_refl _⟩
        · rename_i other
          refine .inl ⟨⟨run', workerId, lease', found', active, hosts, byWorker, leased, until_⟩, ?_⟩
          rintro x ⟨lock, before, holder, rfl⟩ _
          obtain ⟨row, present, _, byOwner⟩ := locks.runs host lock runId before holder
          obtain rfl := Option.some.inj (present.symm.trans found')
          refine ⟨lock, ?_, holder, rfl⟩
          rw [same.locks]
          refine lock_of_heartbeat_other before (.inl ?_)
          intro owned
          exact other (owned ▸ Option.some.inj (byOwner.symm.trans byWorker))
    | @claim worker _ old _ found claims =>
        rw [claims.runs] at found'
        rw [claims.leases] at leased
        have hosts : host ∈ RunRepository.targetHosts world.store runId := by
          simpa only [RunRepository.targetHosts, claims.targets] using member
        have alive := worker.settings.lt_leaseUntil world.clock
        split at found'
        · -- the run that has just been claimed
          rename_i self
          subst self
          obtain rfl := Option.some.inj found'
          obtain rfl : worker.workerId = workerId := Option.some.inj byWorker
          rw [if_pos rfl] at leased
          obtain rfl := Option.some.inj leased
          exact .inr ⟨_, ⟨_, claims.taken host hosts, rfl, rfl⟩, Nat.le_of_eq until_.symm⟩
        split at leased
        · -- another run of the same worker id
          rename_i self
          subst self
          obtain rfl := Option.some.inj leased
          obtain ⟨lock, after, holder, expires⟩ := heartbeat_locks_of_renewsHeld locks renewsHeld
            found rfl found' active byWorker hosts none (worker.settings.leaseUntil world.clock)
          exact .inr ⟨_, ⟨lock, lock_of_claims claims after (by omega), holder, rfl⟩,
            by rw [expires, ← until_]⟩
        · rename_i other
          refine .inl ⟨⟨run', workerId, lease', found', active, hosts, byWorker, leased, until_⟩, ?_⟩
          rintro x ⟨lock, before, holder, rfl⟩ unexpiredLock
          obtain ⟨row, present, _, byOwner⟩ := locks.runs host lock runId before holder
          obtain rfl := Option.some.inj (present.symm.trans found')
          refine ⟨lock, lock_of_claims claims ?_ unexpiredLock, holder, rfl⟩
          refine lock_of_heartbeat_other before (.inl ?_)
          intro owned
          exact other (owned ▸ Option.some.inj (byOwner.symm.trans byWorker))
    | recover _ _ _ | start _ _ _ | append _ _ _ _ | report _ _ _ _ _ _ => cases renews
    | finish _ _ _ renewsNot _ => cases renewsNot.symm.trans renews
    | _ => cases renews
  · refine .inl ⟨runHolds_of_effect inv effect renews holds, ?_⟩
    obtain ⟨run', _, _, found', active, _⟩ := holds
    rintro x ⟨lock, before, holder, rfl⟩ alive
    exact ⟨lock, runLock_kept_of_effect effect renews before holder alive found' active, holder, rfl⟩

/-- The sessions that are live after a step still have their lock rows. -/
theorem shells_covered (effect : Effect world action store) {id : Uuid}
    (holds : ShellHolds store id host expiry) :
    View.Covered (executions world.store) (executions store) world.clock (.shell id) host
      expiry := by
  obtain ⟨session', found', active, onHost, until_⟩ := holds
  -- where the session rows are the same and the unexpired lock stays
  have unchanged : store.shells = world.store.shells →
      (∀ lock, world.store.locks.lookup host = some lock → lock.runId? = none →
        world.clock < lock.expiresAt → store.locks.lookup host = some lock) →
      View.Covered (executions world.store) (executions store) world.clock (.shell id) host
        expiry := by
    intro same kept
    refine .inl ⟨⟨session', by rw [← same, found'], active, onHost, until_⟩, ?_⟩
    rintro x ⟨lock, before, holder, rfl⟩ alive
    have noRun : lock.runId? = none := by simp [HostLock.runId?, holder]
    exact ⟨lock, kept lock before noRun alive, holder, rfl⟩
  cases effect with
  | quiet same => exact unchanged same.shells fun lock before _ _ => by rw [same.locks, before]
  | create creates =>
      exact unchanged creates.shells fun lock before _ _ => by rw [creates.locks, before]
  | cancel cancels =>
      exact unchanged cancels.shells fun lock before _ _ => by rw [cancels.locks, before]
  | recover _ _ same =>
      refine unchanged same.shells fun lock before noRun alive => ?_
      rw [same.locks]
      refine (RunRepository.recoverStale_locks _ _).mpr ⟨before, ?_⟩
      rintro (expired | ⟨runId, held, _⟩)
      · omega
      · cases noRun.symm.trans held
  | renew _ _ same =>
      refine unchanged same.shells fun lock before noRun _ => ?_
      rw [same.locks]
      exact lock_of_heartbeat_other before (.inr noRun)
  | claim _ claims =>
      refine unchanged claims.shells fun lock before noRun alive => ?_
      exact lock_of_claims claims (lock_of_heartbeat_other before (.inr noRun)) alive
  | start _ _ same | report _ _ _ _ _ same =>
      exact unchanged same.shells fun lock before _ _ => by rw [same.locks]; exact before
  | append _ _ _ appends =>
      exact unchanged appends.shells fun lock before _ _ => by rw [appends.locks, before]
  | finish _ _ _ _ finishes =>
      refine unchanged finishes.shells fun lock before noRun _ => ?_
      rw [finishes.locks]
      refine (RunRepository.finish_locks _ _ _ _ _).mpr ⟨before, ?_⟩
      intro held
      cases noRun.symm.trans held
  | openShell opens =>
      rw [opens.shells, Table.lookup_put] at found'
      split at found'
      · obtain rfl := Option.some.inj found'
        cases active
      obtain ⟨present, fresh⟩ := Table.lookup_delete_eq_some.mp found'
      refine .inl ⟨⟨session', present, active, onHost, until_⟩, ?_⟩
      rintro x ⟨lock, before, holder, rfl⟩ alive
      refine ⟨lock, ?_, holder, rfl⟩
      have kept : (WebShellRepository.deleteWhere world.store
          (WebShellRepository.Expired world.clock)).locks.lookup host = some lock :=
        lock_of_stays before holder present fresh
      rw [opens.locks, Table.lookup_put_of_ne, kept]
      rintro rfl
      have expired := opens.hostFree lock kept
      omega
  | @activateShell webShellSessionId _ ownerId _ current _ activates =>
      rw [activates.shells] at found'
      split at found'
      · -- the session that has just been activated was handed its unexpired lock
        rename_i self
        subst self
        obtain rfl := Option.some.inj found'
        obtain ⟨owned, found, unexpired⟩ := locks.shells.lock_of_activates activates
        have holder := HostLock.shellId?_eq_some.mp unexpired.1
        rw [show current.hostId = host from onHost] at found
        refine .inr ⟨expiry, ⟨{ owned with ownerId := ownerId, expiresAt := expiry }, ?_, holder, rfl⟩,
          Nat.le_refl _⟩
        rw [activates.locks, found, Option.map_some, if_pos unexpired, ← until_]
        rfl
      · rename_i other
        refine .inl ⟨⟨session', found', active, onHost, until_⟩, ?_⟩
        rintro x ⟨lock, before, holder, rfl⟩ _
        refine ⟨lock, ?_, holder, rfl⟩
        rw [activates.locks, before, Option.map_some, if_neg]
        intro handed
        exact other (LockHolder.shell.inj
          ((HostLock.shellId?_eq_some.mp handed.1).symm.trans holder))
  | refreshShell =>
      exact shells_covered_refresh locks renewsHeld ⟨session', found', active, onHost, until_⟩
  | closeShell same =>
      rw [same.shells] at found'
      cases present : world.store.shells.lookup id with
      | none =>
          simp only [WebShellRepository.markCloseRequested, Table.lookup_update, present] at found'
          cases found'
      | some session =>
          obtain ⟨row, after, _, _, _, kept⟩ := markCloseRequested_shells present
          obtain rfl := Option.some.inj (after.symm.trans found')
          obtain rfl := kept active
          refine .inl ⟨⟨row, present, active, onHost, until_⟩, ?_⟩
          rintro x ⟨lock, before, owned⟩ _
          exact ⟨lock, by rw [same.locks]; exact before, owned⟩
  | dropShells Gone same =>
      rw [same.shells] at found'
      obtain ⟨present, stays⟩ := Table.lookup_delete_eq_some.mp found'
      refine .inl ⟨⟨session', present, active, onHost, until_⟩, ?_⟩
      rintro x ⟨lock, before, holder, rfl⟩ _
      refine ⟨lock, ?_, holder, rfl⟩
      rw [same.locks]
      exact lock_of_stays before holder present stays

/-- **A step that renews held locks only keeps the rows ahead of the leases.** -/
theorem guarded_of_effect (inv : LifecycleInv world) (effect : Effect world action store)
    (guarded : (executions world.store).Guarded world.clock) :
    (executions store).Guarded world.clock := by
  refine guarded.of_covered ?_
  intro holder host expiry holds _
  cases holder with
  | run runId => exact runs_covered locks renewsHeld inv effect holds
  | shell id => exact shells_covered locks renewsHeld effect holds

end Guarded

/-! ## The invariant -/

/-- What a run of renewals of held locks keeps. -/
structure ExclusionInv (world : World) : Prop where
  lifecycle : LifecycleInv world
  locks : LocksInv world
  guarded : (executions world.store).Guarded world.clock

theorem exclusionInv_inductive : (deployment.restrict RenewsHeldLocks).Inductive ExclusionInv where
  initial world start := by
    refine ⟨lifecycleInv_inductive.initial world start, locksInv_inductive.initial world start, ?_⟩
    obtain rfl := start
    rintro (runId | id) host expiry holds _
    · obtain ⟨run, _, _, found, _⟩ := holds
      cases found
    · obtain ⟨session, found, _⟩ := holds
      cases found
  preserved world action world' inv step := by
    obtain ⟨renewsHeld, step⟩ := System.restrict_step.mp step
    refine ⟨lifecycleInv_inductive.preserved _ _ _ inv.lifecycle step,
      locksInv_inductive.preserved _ _ _ inv.locks step, ?_⟩
    have guarded := guarded_of_effect inv.locks renewsHeld inv.lifecycle (effect_of_step step)
      inv.guarded
    exact guarded.later (clock_le_of_step step)

/-- **Host mutual exclusion**, in every run whose renewals find their lock rows:
two live executions on one host are one and the same. -/
theorem exclusive_of_renewsHeldLocks {world : World}
    (reached : (deployment.restrict RenewsHeldLocks).Reachable world) {host : Uuid}
    {holder holder' : LockHolder} (live : Live world holder host)
    (live' : Live world holder' host) : holder = holder' :=
  (exclusionInv_inductive.of_reachable reached).guarded.exclusive live live'

/-- A run is live as soon as its worker's lease is unexpired. -/
theorem live_run {world : World} {runId host : Uuid} {workerId : String} {run : Run}
    {lease : WorkerLease} (found : world.store.runs.lookup runId = some run)
    (active : run.status.active = true)
    (member : host ∈ RunRepository.targetHosts world.store runId)
    (byWorker : run.claimedBy = some workerId)
    (leased : world.store.leases.lookup workerId = some lease)
    (unexpired : world.clock < lease.expiresAt) : Live world (.run runId) host :=
  ⟨lease.expiresAt, ⟨run, workerId, lease, found, active, member, byWorker, leased, rfl⟩, unexpired⟩

/-- What is read off a world to see that a run is live on the first host. -/
def liveness (world : World) (runId : Uuid) (workerId : String) :
    Option (Bool × Option String × Bool × Bool) :=
  (world.store.runs.lookup runId).bind fun run =>
    (world.store.leases.lookup workerId).map fun lease =>
      (run.status.active, run.claimedBy, decide (world.clock < lease.expiresAt),
        decide (1 ∈ RunRepository.targetHosts world.store runId))

theorem live_of_liveness {world : World} {runId : Uuid} {workerId : String}
    (reads : liveness world runId workerId = some (true, some workerId, true, true)) :
    Live world (.run runId) 1 := by
  obtain ⟨run, found, reads⟩ := Option.bind_eq_some_iff.mp reads
  obtain ⟨lease, leased, reads⟩ := Option.map_eq_some_iff.mp reads
  simp only [Prod.mk.injEq, decide_eq_true_eq] at reads
  obtain ⟨active, byWorker, unexpired, member⟩ := reads
  exact live_run found active member byWorker leased unexpired

/-- A worker claims a run and keeps it alive. -/
def keepAlive : List Action :=
  firstClaim ++ [.tick 20000000, .worker 1 .monitorHeartbeat, .tick 20000000]

theorem exclusive_keepAlive : ∃ world, deployment.exec .start keepAlive = some world ∧
    Live world (.run 1) 1 ∧ ∀ holder, Live world holder 1 → holder = .run 1 := by
  have ran : (deployment.exec .start keepAlive).bind (fun world => liveness world 1 "a") =
      some (true, some "a", true, true) := by decide
  have along : deployment.Along RenewsHeldLocks .start keepAlive := by decide
  obtain ⟨world, done, reads⟩ := Option.bind_eq_some_iff.mp ran
  have live := live_of_liveness reads
  have reached : (deployment.restrict RenewsHeldLocks).Reachable world :=
    ⟨.start, rfl, System.leads_restrict_of_exec done along⟩
  exact ⟨world, done, live, fun holder other => exclusive_of_renewsHeldLocks reached other live⟩

/-! ## The defect -/

/-- The first worker stalls past its lease while the second one, already idle,
takes over the expired lock of the host with the next run; then the first one
resumes its heartbeats. -/
def resumeAfterTakeover : List Action :=
  [.createRun (pingDraft 1 1) [], .createRun { pingDraft 2 2 with idempotencyKey := "again" } [],
    .spawn 2 "b" .default, .worker 2 .recoverStale] ++ claimOnce 1 "a" ++
  [.tick 31000000, .worker 2 .beginIteration, .worker 2 .heartbeat, .worker 2 (.claim []),
    .worker 1 .monitorHeartbeat]

/-- **Two runs are live on one host.** -/
theorem exclusive_fails : ¬ ∀ world host holder holder', deployment.Reachable world →
    Live world holder host → Live world holder' host → holder = holder' := by
  intro exclusive
  have ran : (deployment.exec .start resumeAfterTakeover).bind (fun world =>
      (liveness world 1 "a").bind fun first => (liveness world 2 "b").map fun second =>
        (first, second)) =
      some ((true, some "a", true, true), true, some "b", true, true) := by decide
  obtain ⟨world, done, ran⟩ := Option.bind_eq_some_iff.mp ran
  obtain ⟨first, readsFirst, ran⟩ := Option.bind_eq_some_iff.mp ran
  obtain ⟨second, readsSecond, ran⟩ := Option.map_eq_some_iff.mp ran
  obtain ⟨rfl, rfl⟩ := Prod.mk.injEq .. ▸ ran
  have same := exclusive world 1 _ _ (reachable_of_exec done) (live_of_liveness readsFirst)
    (live_of_liveness readsSecond)
  cases same

end OpsComposer.Cluster
