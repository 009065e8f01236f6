import OpsComposer.Cluster.Lifecycle
import OpsComposer.Foundations.LeasedLock

/-!
# The rows behind the host locks

What a lock row refers to, in every reachable state: a run lock belongs to a run
that is `PREPARING` or `RUNNING` and is owned by the worker that claimed it; a
web-shell lock belongs to a session of the same host and, once the session has
been activated, is owned by the owner of the session.

Nothing of the kind holds the other way round: a live execution need not have
its lock row.  That is the subject of `OpsComposer.Cluster.Exclusion`.
-/

set_option autoImplicit false

namespace OpsComposer.Cluster

open Domain Foundations Repositories Services

/-- A run lock belongs to an active run and to the worker that claimed it. -/
def RunLocksOk (store : Store) : Prop :=
  ∀ host lock runId, store.locks.lookup host = some lock → lock.holder = .run runId →
    ∃ run, store.runs.lookup runId = some run ∧ run.status.active = true ∧
      run.claimedBy = some lock.ownerId

/-- A web-shell lock belongs to a session of its host and to the session's owner. -/
def ShellLocksOk (store : Store) : Prop :=
  ∀ host lock id, store.locks.lookup host = some lock → lock.holder = .shell id →
    ∃ session, store.shells.lookup id = some session ∧ session.hostId = host ∧
      (session.state ≠ .pending → session.ownerId = some lock.ownerId)

/-! ## Run locks -/

variable {now : Nat} {store store' : Store}

/-- Run locks stay in order when no run lock is new and the runs of the
remaining ones stay active under their worker. -/
theorem RunLocksOk.of_kept (ok : RunLocksOk store)
    (old : ∀ host lock' runId, store'.locks.lookup host = some lock' →
      lock'.holder = .run runId → ∃ lock, store.locks.lookup host = some lock ∧
        lock.holder = .run runId ∧ lock.ownerId = lock'.ownerId)
    (active : ∀ host lock' runId run, store'.locks.lookup host = some lock' →
      lock'.holder = .run runId → store.runs.lookup runId = some run →
      run.status.active = true → ∃ run', store'.runs.lookup runId = some run' ∧
        run'.status.active = true ∧ run'.claimedBy = run.claimedBy) :
    RunLocksOk store' := by
  intro host lock' runId found holder
  obtain ⟨lock, before, holder', owner⟩ := old host lock' runId found holder
  obtain ⟨run, present, isActive, byOwner⟩ := ok host lock runId before holder'
  obtain ⟨run', present', isActive', same⟩ := active host lock' runId run found holder present isActive
  exact ⟨run', present', isActive', by rw [same, byOwner, owner]⟩

theorem RunLocksOk.of_same (ok : RunLocksOk store) (runs : store'.runs = store.runs)
    (locks : store'.locks = store.locks) : RunLocksOk store' := by
  intro host lock runId found holder
  rw [locks] at found
  rw [runs]
  exact ok host lock runId found holder

/-- A refresh keeps the holder and the owner of every lock. -/
theorem lock_of_heartbeat {workerId : String} {runId : Option Uuid}
    {expiresAt : Nat} {host : Uuid} {lock' : HostLock}
    (found : (RunRepository.heartbeat store workerId runId now expiresAt).locks.lookup host =
      some lock') :
    ∃ lock, store.locks.lookup host = some lock ∧ lock.holder = lock'.holder ∧
      lock.ownerId = lock'.ownerId := by
  rw [RunRepository.heartbeat_locks] at found
  obtain ⟨lock, before, rfl⟩ := Option.map_eq_some_iff.mp found
  refine ⟨lock, before, ?_, ?_⟩
  · split <;> rfl
  · split <;> rfl

theorem runLocksOk_of_heartbeat {workerId : String} {runId : Option Uuid}
    {expiresAt : Nat} (ok : RunLocksOk store)
    (same : SameExecutions (RunRepository.heartbeat store workerId runId now expiresAt) store') :
    RunLocksOk store' := by
  refine ok.of_kept ?_ ?_
  · intro host lock' runId found holder
    rw [same.locks] at found
    obtain ⟨lock, before, holder', owner⟩ := lock_of_heartbeat found
    exact ⟨lock, before, holder'.trans holder, owner⟩
  · intro host lock' runId run _ _ present isActive
    exact ⟨run, by rw [same.runs]; exact present, isActive, rfl⟩

/-- Run locks that are put aside for deleted sessions were web-shell locks. -/
theorem lock_of_deleteWhere {Gone : WebShellSession → Prop} [DecidablePred Gone]
    {host : Uuid} {lock : HostLock} :
    (WebShellRepository.deleteWhere store Gone).locks.lookup host = some lock ↔
      store.locks.lookup host = some lock ∧
        ¬ ∃ id ∈ lock.shellId?, ∃ session ∈ store.shells.lookup id, Gone session := by
  simp only [WebShellRepository.deleteWhere, Table.lookup_delete_eq_some]

/-- **Every step keeps the run locks in order.** -/
theorem runLocksOk_of_effect {world : World} {action : Action}
    (ok : RunLocksOk world.store) (effect : Effect world action store) : RunLocksOk store := by
  cases effect with
  | quiet same | report _ _ _ _ _ same | closeShell same => exact ok.of_same same.runs same.locks
  | create creates =>
      refine ok.of_kept ?_ ?_
      · intro host lock' runId found holder
        exact ⟨lock', by rw [← creates.locks, found], holder, rfl⟩
      · intro host lock' runId run _ _ present isActive
        refine ⟨run, ?_, isActive, rfl⟩
        rw [creates.runs, if_neg, present]
        rintro rfl
        exact Table.not_free creates.runFree present
  | cancel cancels =>
      refine ok.of_kept ?_ ?_
      · intro host lock' runId found holder
        exact ⟨lock', by rw [← cancels.locks, found], holder, rfl⟩
      · intro host lock' runId run _ _ present isActive
        rw [cancels.runs]
        split
        · rename_i same
          obtain rfl := Option.some.inj (cancels.found.symm.trans (same ▸ present))
          refine ⟨_, rfl, ?_, rfl⟩
          have status : (RunRepository.canceledBy world.clock _).status = _ :=
            RunRepository.canceledBy_status_of_active isActive
          exact (congrArg RunStatus.active status).trans isActive
        · exact ⟨run, present, isActive, rfl⟩
  | recover _ _ same =>
      have spared : ∀ host lock', store.locks.lookup host = some lock' →
          world.store.locks.lookup host = some lock' ∧ ¬ (lock'.expiresAt ≤ world.clock ∨
            ∃ runId ∈ lock'.runId?, RunRepository.StrandedId world.store world.clock runId) := by
        intro host lock' found
        rw [same.locks] at found
        exact (RunRepository.recoverStale_locks _ _).mp found
      refine ok.of_kept ?_ ?_
      · intro host lock' runId found holder
        exact ⟨lock', (spared host lock' found).1, holder, rfl⟩
      · intro host lock' runId run found holder present isActive
        rw [same.runs, RunRepository.recoverStale_runs, present, Option.map_some, if_neg]
        · exact ⟨run, rfl, isActive, rfl⟩
        · intro stranded
          exact (spared host lock' found).2
            (.inr ⟨runId, HostLock.runId?_eq_some.mpr holder, run, present, stranded⟩)
  | renew _ _ same => exact runLocksOk_of_heartbeat ok same
  | @claim worker _ old _ _ claims =>
      intro host lock' runId found holder
      by_cases member : host ∈ RunRepository.targetHosts world.store old.runId
      · rw [claims.taken host member] at found
        obtain rfl := Option.some.inj found
        obtain rfl := LockHolder.run.inj holder
        exact ⟨_, (claims.runs _).trans (if_pos rfl), rfl, rfl⟩
      · rw [claims.kept host member] at found
        obtain ⟨lock, before, holder', owner⟩ := lock_of_heartbeat found
        obtain ⟨run, present, isActive, byOwner⟩ := ok host lock runId before (holder'.trans holder)
        refine ⟨run, ?_, isActive, by rw [byOwner, owner]⟩
        rw [claims.runs, if_neg, present]
        rintro rfl
        obtain rfl := Option.some.inj (claims.found.symm.trans present)
        rw [claims.queued] at isActive
        cases isActive
  | start _ _ same =>
      refine ok.of_kept ?_ ?_
      · intro host lock' runId found holder
        exact ⟨lock', by rw [same.locks] at found; exact found, holder, rfl⟩
      · intro host lock' runId run _ _ present isActive
        rw [same.runs, RunRepository.markRunning_runs, present, Option.map_some]
        refine ⟨_, rfl, ?_, ?_⟩
        · split
          · rfl
          · exact isActive
        · split <;> rfl
  | append _ _ _ appends =>
      refine ok.of_kept ?_ ?_
      · intro host lock' runId found holder
        exact ⟨lock', by rw [← appends.locks, found], holder, rfl⟩
      · intro host lock' runId run _ _ present isActive
        rw [appends.runs]
        split
        · rename_i same
          obtain rfl := Option.some.inj (appends.found.symm.trans (same ▸ present))
          exact ⟨_, rfl, isActive, rfl⟩
        · exact ⟨run, present, isActive, rfl⟩
  | @finish worker _ runId _ outcome old _ _ _ _ _ finishes =>
      have spared : ∀ host lock', store.locks.lookup host = some lock' →
          world.store.locks.lookup host = some lock' ∧ ¬ lock'.runId? = some runId := by
        intro host lock' found
        rw [finishes.locks] at found
        exact (RunRepository.finish_locks _ _ _ _ _).mp found
      refine ok.of_kept ?_ ?_
      · intro host lock' other found holder
        exact ⟨lock', (spared host lock' found).1, holder, rfl⟩
      · intro host lock' other run found holder present isActive
        refine ⟨run, ?_, isActive, rfl⟩
        rw [finishes.runs, if_neg, present]
        rintro rfl
        exact (spared host lock' found).2 (HostLock.runId?_eq_some.mpr holder)
  | openShell opens =>
      refine ok.of_kept ?_ ?_
      · intro host lock' runId found holder
        rw [opens.locks, Table.lookup_put] at found
        split at found
        · obtain rfl := Option.some.inj found
          cases holder
        · exact ⟨lock', (lock_of_deleteWhere.mp found).1, holder, rfl⟩
      · intro host lock' runId run _ _ present isActive
        exact ⟨run, by rw [opens.runs, present], isActive, rfl⟩
  | activateShell activates =>
      refine ok.of_kept ?_ ?_
      · intro host lock' runId found holder
        rw [activates.locks] at found
        obtain ⟨lock, before, rfl⟩ := Option.map_eq_some_iff.mp found
        split at holder
        · rename_i unexpired
          rw [HostLock.shellId?_eq_some.mp unexpired.1] at holder
          cases holder
        · rename_i other
          exact ⟨lock, before, holder, by rw [if_neg other]⟩
      · intro host lock' runId run _ _ present isActive
        exact ⟨run, by rw [activates.runs, present], isActive, rfl⟩
  | refreshShell =>
      refine ok.of_kept ?_ ?_
      · intro host lock' runId found holder
        simp only [WebShellRepository.heartbeat, Table.lookup_update] at found
        obtain ⟨lock, before, rfl⟩ := Option.map_eq_some_iff.mp found
        refine ⟨lock, before, ?_, ?_⟩
        · split at holder <;> exact holder
        · split <;> rfl
      · intro host lock' runId run _ _ present isActive
        exact ⟨run, present, isActive, rfl⟩
  | dropShells Gone same =>
      refine ok.of_kept ?_ ?_
      · intro host lock' runId found holder
        rw [same.locks] at found
        exact ⟨lock', (lock_of_deleteWhere.mp found).1, holder, rfl⟩
      · intro host lock' runId run _ _ present isActive
        exact ⟨run, by rw [same.runs]; exact present, isActive, rfl⟩

/-! ## Web-shell locks -/

/-- Web-shell locks stay in order when none of them is new and the sessions stay. -/
theorem ShellLocksOk.of_kept (ok : ShellLocksOk store)
    (shells : store'.shells = store.shells)
    (old : ∀ host lock' id, store'.locks.lookup host = some lock' → lock'.holder = .shell id →
      ∃ lock, store.locks.lookup host = some lock ∧ lock.holder = .shell id ∧
        lock.ownerId = lock'.ownerId) :
    ShellLocksOk store' := by
  intro host lock' id found holder
  obtain ⟨lock, before, holder', owner⟩ := old host lock' id found holder
  obtain ⟨session, present, onHost, byOwner⟩ := ok host lock id before holder'
  refine ⟨session, by rw [shells, present], onHost, ?_⟩
  intro activated
  rw [byOwner activated, owner]

theorem ShellLocksOk.of_same (ok : ShellLocksOk store) (shells : store'.shells = store.shells)
    (locks : store'.locks = store.locks) : ShellLocksOk store' :=
  ok.of_kept shells fun _ lock' _ found holder => ⟨lock', by rw [← locks, found], holder, rfl⟩

/-- Dropping sessions with their locks keeps the locks of the others in order. -/
theorem ShellLocksOk.deleteWhere (ok : ShellLocksOk store) (Gone : WebShellSession → Prop)
    [DecidablePred Gone] : ShellLocksOk (WebShellRepository.deleteWhere store Gone) := by
  intro host lock id found holder
  obtain ⟨before, spared⟩ := lock_of_deleteWhere.mp found
  obtain ⟨session, present, onHost, byOwner⟩ := ok host lock id before holder
  refine ⟨session, ?_, onHost, byOwner⟩
  refine Table.lookup_delete_eq_some.mpr ⟨present, ?_⟩
  intro gone
  exact spared ⟨id, HostLock.shellId?_eq_some.mpr holder, session, present, gone⟩

/-- Requesting the close of a session keeps its host and its owner. -/
theorem markCloseRequested_shells {webShellSessionId actorUserId : Uuid} {id : Uuid}
    {session : WebShellSession} (found : store.shells.lookup id = some session) :
    ∃ session', (WebShellRepository.markCloseRequested store webShellSessionId actorUserId
        now).2.shells.lookup id = some session' ∧ session'.hostId = session.hostId ∧
      session'.ownerId = session.ownerId ∧ (session.state = .pending → session'.state = .pending) ∧
      (session'.state = .active → session' = session) := by
  simp only [WebShellRepository.markCloseRequested, Table.lookup_update, found, Option.map_some]
  refine ⟨_, rfl, ?_⟩
  split
  · rename_i closable
    refine ⟨rfl, rfl, ?_, ?_⟩
    · intro pending
      rw [closable.2.2] at pending
      cases pending
    · intro active
      cases active
  · exact ⟨rfl, rfl, fun pending => pending, fun _ => rfl⟩

/-- A session that is activated has the lock of its host, unexpired. -/
theorem ShellLocksOk.lock_of_activates (ok : ShellLocksOk store)
    {webShellSessionId : Uuid} {principal : Principal} {ownerId : String}
    {current : WebShellSession} (activates : WebShellService.Activates store webShellSessionId
      principal ownerId now current store') :
    ∃ lock, store.locks.lookup current.hostId = some lock ∧
      WebShellRepository.UnexpiredLock webShellSessionId now lock := by
  obtain ⟨lock, only⟩ := List.length_eq_one_iff.mp activates.locked
  have member : lock ∈ store.locks.select
      (WebShellRepository.UnexpiredLock webShellSessionId now) := by
    rw [only]
    exact List.mem_singleton_self lock
  obtain ⟨found, unexpired⟩ := Table.mem_select.mp member
  obtain ⟨session, present, onHost, _⟩ := ok lock.hostId lock webShellSessionId found
    (HostLock.shellId?_eq_some.mp unexpired.1)
  obtain rfl := Option.some.inj (activates.found.symm.trans present)
  exact ⟨lock, by rw [onHost, found], unexpired⟩

/-- **Every step keeps the web-shell locks in order.** -/
theorem shellLocksOk_of_effect {world : World} {action : Action}
    (ok : ShellLocksOk world.store) (effect : Effect world action store) : ShellLocksOk store := by
  cases effect with
  | quiet same | start _ _ same | report _ _ _ _ _ same => exact ok.of_same same.shells same.locks
  | create creates => exact ok.of_same creates.shells creates.locks
  | cancel cancels => exact ok.of_same cancels.shells cancels.locks
  | recover _ _ same =>
      refine ok.of_kept same.shells ?_
      intro host lock' id found holder
      rw [same.locks] at found
      exact ⟨lock', ((RunRepository.recoverStale_locks _ _).mp found).1, holder, rfl⟩
  | renew _ _ same =>
      refine ok.of_kept same.shells ?_
      intro host lock' id found holder
      rw [same.locks] at found
      obtain ⟨lock, before, holder', owner⟩ := lock_of_heartbeat found
      exact ⟨lock, before, holder'.trans holder, owner⟩
  | @claim _ _ old _ _ claims =>
      refine ok.of_kept claims.shells ?_
      intro host lock' id found holder
      by_cases member : host ∈ RunRepository.targetHosts world.store old.runId
      · rw [claims.taken host member] at found
        obtain rfl := Option.some.inj found
        cases holder
      · rw [claims.kept host member] at found
        obtain ⟨lock, before, holder', owner⟩ := lock_of_heartbeat found
        exact ⟨lock, before, holder'.trans holder, owner⟩
  | append _ _ _ appends => exact ok.of_same appends.shells appends.locks
  | finish _ _ _ _ finishes =>
      refine ok.of_kept finishes.shells ?_
      intro host lock' id found holder
      rw [finishes.locks] at found
      exact ⟨lock', ((RunRepository.finish_locks _ _ _ _ _).mp found).1, holder, rfl⟩
  | @openShell _ webShellSessionId hostId _ _ _ _ _ opens =>
      intro host lock' id found holder
      rw [opens.locks, Table.lookup_put] at found
      split at found
      · rename_i same
        obtain rfl := Option.some.inj found
        obtain rfl := LockHolder.shell.inj holder
        refine ⟨_, by rw [opens.shells]; exact Table.lookup_put_self _ _, same, ?_⟩
        intro activated
        exact absurd rfl activated
      · obtain ⟨session, present, onHost, byOwner⟩ := (ok.deleteWhere _) host lock' id found holder
        refine ⟨session, ?_, onHost, byOwner⟩
        rw [opens.shells, Table.lookup_put_of_ne, present]
        rintro rfl
        exact Table.not_free opens.sessionFree present
  | @activateShell webShellSessionId _ ownerId _ current _ activates =>
      intro host lock' id found holder
      rw [activates.locks] at found
      obtain ⟨lock, before, rfl⟩ := Option.map_eq_some_iff.mp found
      have holder' : lock.holder = .shell id := by
        split at holder <;> exact holder
      obtain ⟨session, present, onHost, byOwner⟩ := ok host lock id before holder'
      rw [activates.shells]
      by_cases same : webShellSessionId = id
      · subst same
        rw [if_pos rfl]
        obtain rfl := Option.some.inj (activates.found.symm.trans present)
        refine ⟨_, rfl, onHost, ?_⟩
        intro _
        -- the unexpired lock of the session is this one: both are on its host
        have unexpired : WebShellRepository.UnexpiredLock webShellSessionId world.clock lock := by
          obtain ⟨owned, found, unexpired⟩ := ok.lock_of_activates activates
          rw [onHost, before] at found
          obtain rfl := Option.some.inj found
          exact unexpired
        rw [if_pos unexpired]
        rfl
      · rw [if_neg same]
        refine ⟨session, present, onHost, ?_⟩
        have other : ¬ WebShellRepository.UnexpiredLock webShellSessionId world.clock lock := by
          intro unexpired
          have named := HostLock.shellId?_eq_some.mp unexpired.1
          exact same (LockHolder.shell.inj (named.symm.trans holder'))
        rw [if_neg other]
        exact byOwner
  | refreshShell =>
      intro host lock' id found holder
      simp only [WebShellRepository.heartbeat, Table.lookup_update] at found ⊢
      obtain ⟨lock, before, rfl⟩ := Option.map_eq_some_iff.mp found
      have holder' : lock.holder = .shell id := by
        split at holder <;> exact holder
      obtain ⟨session, present, onHost, byOwner⟩ := ok host lock id before holder'
      rw [present, Option.map_some]
      refine ⟨_, rfl, ?_, ?_⟩
      · split <;> exact onHost
      · have owner : ∀ (P : Prop) [Decidable P] (expiry : Nat),
            (if P then { lock with expiresAt := expiry } else lock).ownerId = lock.ownerId := by
          intro P _ expiry
          split <;> rfl
        rw [owner]
        split <;> exact byOwner
  | closeShell same =>
      intro host lock' id found holder
      rw [same.locks] at found
      obtain ⟨session, present, onHost, byOwner⟩ := ok host lock' id found holder
      obtain ⟨session', present', host', owner', pending, _⟩ := markCloseRequested_shells present
      refine ⟨session', by rw [same.shells]; exact present', host'.trans onHost, ?_⟩
      intro activated
      rw [owner']
      exact byOwner fun wasPending => activated (pending wasPending)
  | dropShells Gone same =>
      exact (ok.deleteWhere Gone).of_same same.shells same.locks

/-! ## Both are invariants -/

/-- The invariant of the lock rows. -/
structure LocksInv (world : World) : Prop where
  runs : RunLocksOk world.store
  shells : ShellLocksOk world.store

/-- **The lock rows are in order in every reachable state.** -/
theorem locksInv_inductive : deployment.Inductive LocksInv where
  initial world start := by
    obtain rfl := start
    have noLock : ∀ host lock, World.start.store.locks.lookup host ≠ some lock := by
      intro host lock found
      cases found
    exact
      { runs := fun host lock _ found => absurd found (noLock host lock)
        shells := fun host lock _ found => absurd found (noLock host lock) }
  preserved _ _ _ inv step :=
    ⟨runLocksOk_of_effect inv.runs (effect_of_step step),
      shellLocksOk_of_effect inv.shells (effect_of_step step)⟩

end OpsComposer.Cluster
