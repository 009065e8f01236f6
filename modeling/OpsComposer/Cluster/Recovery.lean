import OpsComposer.Cluster.Locks

/-!
# Recovery after the death of a worker

`recover_stale` interrupts the active runs whose worker has an expired lease, and
a worker process calls it once, before its main loop.  Two things are missing
for an abandoned run to end in any case.  A process that restarts under its old
id before the lease has expired finds nothing to recover, and its own heartbeats
keep the lease, and with it the abandoned run and its host locks, alive for ever.
And a worker that is already in its loop never recovers anything.

* `NoRunLeftStuck` — what is expected of a deployment;
* `RecoversInTime` — a restart waits for the lease of its id to expire, and an
  iteration begins only when somebody has recovered what had expired by then;
* `noRunLeftStuck_of_recoversInTime` — under this condition it holds;
* `noRunLeftStuck_fails` — a restart before the expiry, and an iteration after it,
  that leave a run stuck.
-/

set_option autoImplicit false

namespace OpsComposer.Cluster

open Domain Foundations Repositories Services

/-! ## What is expected -/

/-- An active run of a worker id that no living process executes. -/
abbrev LeftBehind (world : World) (workerId : String) (run : Run) : Prop :=
  run.status.active = true ∧ run.claimedBy = some workerId ∧
    ∀ worker ∈ world.workers.rows, worker.stage.run? ≠ some run.runId

/-- A start-up recovery ends the runs that its worker id left behind, for good and
with their locks. -/
def RestartsRecover (M : System World Action) (world : World) : Prop :=
  ∀ id worker world', world.workers.lookup id = some worker →
    M.step world (.worker id .recoverStale) = some world' →
    ∀ runId run, world.store.runs.lookup runId = some run →
      LeftBehind world worker.workerId run → ∀ later, M.Leads world' later →
      (∀ run', later.store.runs.lookup runId = some run' → run'.status.active = false) ∧
        ∀ host lock, later.store.locks.lookup host = some lock → lock.holder ≠ .run runId

/-- At the end of an iteration no run is active under a lease that had expired
before the iteration began. -/
def IterationsRecover (M : System World Action) (world : World) : Prop :=
  ∀ id worker begun action world' worker', world.workers.lookup id = some worker →
    worker.stage.begun? = some begun → M.step world action = some world' →
    world'.workers.lookup id = some worker' → worker'.stage = .idle →
    ∀ runId run, world'.store.runs.lookup runId = some run → run.status.active = true →
      ∃ workerId lease, run.claimedBy = some workerId ∧
        world'.store.leases.lookup workerId = some lease ∧ begun < lease.expiresAt

/-- **No run is left stuck after a worker dies**: what the next step from a state
must do for it. -/
structure NoRunLeftStuck (M : System World Action) (world : World) : Prop where
  restart : RestartsRecover M world
  iteration : IterationsRecover M world

/-! ## The condition -/

/-- The process whose start-up recovery an action is. -/
def Action.recovering? (world : World) : Action → Option WorkerProcess
  | .worker processId .recoverStale => world.workers.lookup processId
  | _ => none

/-- The action begins an iteration of a main loop. -/
def Action.beginning : Action → Bool
  | .worker _ .beginIteration => true
  | _ => false

/-- **The condition**: a start-up recovery that has left-behind runs of its worker
id comes after the expiry of the lease of that id, and an iteration begins when
the lease of every active run is unexpired. -/
def RecoversInTime (world : World) (action : Action) : Prop :=
  (∀ worker ∈ action.recovering? world, ∀ run ∈ world.store.runs.rows,
    LeftBehind world worker.workerId run →
    ∀ lease ∈ world.store.leases.lookup worker.workerId, lease.expiresAt ≤ world.clock) ∧
  (action.beginning = true → ∀ run ∈ world.store.runs.rows, run.status.active = true →
    ∀ workerId ∈ run.claimedBy, ∀ lease ∈ world.store.leases.lookup workerId,
      world.clock < lease.expiresAt)

instance (world : World) (action : Action) : Decidable (RecoversInTime world action) :=
  inferInstanceAs (Decidable (_ ∧ _))

/-! ## The leases of active runs -/

/-- Every active run is claimed by a worker that has a lease row. -/
def Leased (store : Store) : Prop :=
  ∀ runId run, store.runs.lookup runId = some run → run.status.active = true →
    ∃ workerId lease, run.claimedBy = some workerId ∧
      store.leases.lookup workerId = some lease

/-- The lease of an active run before a step. -/
def LeasedUntil (store : Store) (runId : Uuid) (expiry : Nat) : Prop :=
  ∃ run workerId lease, store.runs.lookup runId = some run ∧ run.status.active = true ∧
    run.claimedBy = some workerId ∧ store.leases.lookup workerId = some lease ∧
    lease.expiresAt = expiry

variable {action : Action} {run' : Run} {store : Store} {runId : Uuid} {world : World}

/-- A step that renews no lease keeps the lease of a run that stays active. -/
theorem lease_kept_of_effect (effect : Effect world action store) (renewsNot : action.renews ≠ true)
    {run : Run} {workerId : String} {lease : WorkerLease}
    (found : world.store.runs.lookup runId = some run) (wasActive : run.status.active = true)
    (byWorker : run.claimedBy = some workerId)
    (leased : world.store.leases.lookup workerId = some lease)
    (found' : store.runs.lookup runId = some run') (active : run'.status.active = true) :
    ∃ lease', store.leases.lookup workerId = some lease' ∧ lease'.expiresAt = lease.expiresAt := by
  have unchanged : store.leases = world.store.leases →
      ∃ lease', store.leases.lookup workerId = some lease' ∧ lease'.expiresAt = lease.expiresAt :=
    fun same => ⟨lease, same ▸ leased, rfl⟩
  cases effect with
  | quiet same | start _ _ same | report _ _ _ _ _ same | closeShell same | dropShells _ same =>
      exact unchanged same.leases
  | create creates => exact unchanged creates.leases
  | cancel cancels => exact unchanged cancels.leases
  | recover _ _ same =>
      refine ⟨lease, ?_, rfl⟩
      rw [same.leases]
      refine (RunRepository.recoverStale_leases _ _).mpr ⟨leased, ?_⟩
      -- an expired lease goes together with the runs that are active under it
      intro expired
      have stranded : RunRepository.Stranded world.store world.clock run :=
        ⟨⟨workerId, byWorker, lease, leased, expired⟩, wasActive⟩
      rw [same.runs, RunRepository.recoverStale_runs, found, Option.map_some,
        if_pos stranded] at found'
      obtain rfl := Option.some.inj found'
      cases active
  | renew _ renews _ => exact absurd renews renewsNot
  | claim _ _ => exact absurd rfl renewsNot
  | append _ _ _ appends => exact unchanged appends.leases
  | finish _ _ _ _ finishes =>
      refine ⟨_, by rw [finishes.leases, RunRepository.finish_leases, leased, Option.map_some], ?_⟩
      split <;> rfl
  | openShell opens => exact unchanged opens.leases
  | activateShell activates => exact unchanged activates.leases
  | refreshShell => exact unchanged rfl

/-- **The lease of a run that is active after a step** is the one it had before,
or has just been renewed. -/
theorem leasedUntil_of_effect (leased : Leased world.store) (effect : Effect world action store)
    (found' : store.runs.lookup runId = some run') (active : run'.status.active = true) :
    ∃ expiry, LeasedUntil store runId expiry ∧
      (world.clock < expiry ∨ LeasedUntil world.store runId expiry) := by
  by_cases renews : action.renews = true
  · cases effect with
    | quiet same =>
        rw [same.runs] at found'
        obtain ⟨workerId, lease, byWorker, present⟩ := leased runId run' found' active
        have before : LeasedUntil world.store runId lease.expiresAt :=
          ⟨run', workerId, lease, found', active, byWorker, present, rfl⟩
        exact ⟨lease.expiresAt, ⟨run', workerId, lease, by rw [same.runs, found'], active, byWorker,
          by rw [same.leases, present], rfl⟩, .inr before⟩
    | @renew worker _ held _ _ _ same =>
        rw [same.runs] at found'
        obtain ⟨workerId, lease, byWorker, present⟩ := leased runId run' found' active
        have alive := worker.settings.lt_leaseUntil world.clock
        by_cases self : worker.workerId = workerId
        · have renewed := (RunRepository.heartbeat_leases world.store worker.workerId held
            world.clock (worker.settings.leaseUntil world.clock) workerId).trans (if_pos self)
          exact ⟨_, ⟨run', workerId, _, by rw [same.runs]; exact found', active, byWorker,
            by rw [same.leases]; exact renewed, rfl⟩, .inl alive⟩
        · refine ⟨_, ⟨run', workerId, lease, by rw [same.runs]; exact found', active, byWorker, ?_,
            rfl⟩, .inr ⟨run', workerId, lease, found', active, byWorker, present, rfl⟩⟩
          rw [same.leases, RunRepository.heartbeat_leases, if_neg self, present]
    | @claim worker _ old _ _ claims =>
        have alive := worker.settings.lt_leaseUntil world.clock
        have after := found'
        rw [claims.runs] at found'
        split at found'
        · obtain rfl := Option.some.inj found'
          exact ⟨_, ⟨_, worker.workerId, _, after, active, rfl,
            (claims.leases _).trans (if_pos rfl), rfl⟩, .inl alive⟩
        obtain ⟨workerId, lease, byWorker, present⟩ := leased runId run' found' active
        by_cases self : worker.workerId = workerId
        · exact ⟨_, ⟨run', workerId, _, after, active, byWorker,
            (claims.leases _).trans (if_pos self), rfl⟩, .inl alive⟩
        · exact ⟨_, ⟨run', workerId, lease, after, active, byWorker,
            (claims.leases _).trans ((if_neg self).trans present), rfl⟩,
            .inr ⟨run', workerId, lease, found', active, byWorker, present, rfl⟩⟩
    | recover _ _ _ | start _ _ _ | append _ _ _ _ | report _ _ _ _ _ _ => cases renews
    | finish _ _ _ renewsNot _ => cases renewsNot.symm.trans renews
    | _ => cases renews
  · obtain ⟨run, found, wasActive, same⟩ := active_of_effect effect
      (fun claims => renews (Action.renews_of_claims claims)) found' active
    obtain ⟨workerId, lease, byWorker, present⟩ := leased runId run found wasActive
    obtain ⟨lease', present', sameExpiry⟩ :=
      lease_kept_of_effect effect renews found wasActive byWorker present found' active
    exact ⟨lease.expiresAt, ⟨run', workerId, lease', found', active, same.trans byWorker, present',
      sameExpiry⟩, .inr ⟨run, workerId, lease, found, wasActive, byWorker, present, rfl⟩⟩

theorem leased_of_effect
    (leased : Leased world.store) (effect : Effect world action store) : Leased store := by
  intro runId run' found' active
  obtain ⟨expiry, ⟨row, workerId, lease, present, _, byWorker, stored, _⟩, _⟩ :=
    leasedUntil_of_effect leased effect found' active
  obtain rfl := Option.some.inj (present.symm.trans found')
  exact ⟨workerId, lease, byWorker, stored⟩

/-! ## Recovered runs stay ended -/

/-- The start-up recovery of a process commits what `recover_stale` does. -/
theorem recovered_of_step {world' : World} {id : Uuid} {worker : WorkerProcess}
    (found : world.workers.lookup id = some worker)
    (step : world.step (.worker id .recoverStale) = some world') :
    SameExecutions (RunRepository.recoverStale world.store world.clock).2 world'.store := by
  have worked : World.work world worker .recoverStale = some world' := by
    simpa only [World.step, found] using step
  unfold World.work at worked
  split at worked
  case h_1 =>
    obtain rfl := Option.some.inj worked
    simp only [World.moved_store, WorkerCoordinator.recoverStale]
    split
    · exact .refl _
    · exact .record _ _
  case h_5 => cases worked
  all_goals contradiction

/-- A left-behind run whose lease has expired is ended by a recovery. -/
theorem ended_of_recovery (leased : Leased world.store)
    (same : SameExecutions (RunRepository.recoverStale world.store world.clock).2 store)
    {workerId : String} (expired : ∀ lease ∈ world.store.leases.lookup workerId,
      lease.expiresAt ≤ world.clock) {run : Run} (found : world.store.runs.lookup runId = some run)
    (active : run.status.active = true) (byWorker : run.claimedBy = some workerId) :
    ∃ run', store.runs.lookup runId = some run' ∧ run'.status.terminal = true := by
  obtain ⟨owner, lease, byOwner, present⟩ := leased runId run found active
  obtain rfl : owner = workerId := Option.some.inj (byOwner.symm.trans byWorker)
  have stranded : RunRepository.Stranded world.store world.clock run :=
    ⟨⟨owner, byWorker, lease, present, expired lease present⟩, active⟩
  refine ⟨RunRepository.interruptedBy world.clock run, ?_, rfl⟩
  rw [same.runs, RunRepository.recoverStale_runs, found, Option.map_some, if_pos stranded]

/-- An ended run is not active, and no lock names it. -/
theorem unlocked_of_ended (locks : LocksInv world) (ended : Ended runId world) :
    (∀ run', world.store.runs.lookup runId = some run' → run'.status.active = false) ∧
      ∀ host lock, world.store.locks.lookup host = some lock → lock.holder ≠ .run runId := by
  obtain ⟨run, found, terminal⟩ := ended
  have inactive := RunStatus.not_active_of_terminal terminal
  refine ⟨?_, ?_⟩
  · intro run' found'
    obtain rfl := Option.some.inj (found.symm.trans found')
    exact inactive
  · intro host lock locked holder
    obtain ⟨row, present, active, _⟩ := locks.runs host lock runId locked holder
    obtain rfl := Option.some.inj (found.symm.trans present)
    cases inactive.symm.trans active

/-! ## The invariant -/

/-- What a run that recovers in time keeps: inside an iteration no active run is
under a lease that had expired when the iteration began. -/
structure RecoveryInv (world : World) : Prop where
  locks : LocksInv world
  leased : Leased world.store
  iterations : ∀ id worker begun, world.workers.lookup id = some worker →
    worker.stage.begun? = some begun → begun ≤ world.clock ∧
      ∀ runId run, world.store.runs.lookup runId = some run → run.status.active = true →
        ∃ expiry, LeasedUntil world.store runId expiry ∧ begun < expiry

/-- Leases that outlast an instant go on to outlast it. -/
theorem leases_outlast
    (leased : Leased world.store) (effect : Effect world action store) {begun : Nat}
    (past : begun ≤ world.clock)
    (before : ∀ runId run, world.store.runs.lookup runId = some run → run.status.active = true →
      ∃ expiry, LeasedUntil world.store runId expiry ∧ begun < expiry)
    (found' : store.runs.lookup runId = some run')
    (active : run'.status.active = true) :
    ∃ expiry, LeasedUntil store runId expiry ∧ begun < expiry := by
  obtain ⟨expiry, holds, fresh | ⟨run, workerId, lease, found, wasActive, byWorker, present, until_⟩⟩ :=
    leasedUntil_of_effect leased effect found' active
  · exact ⟨expiry, holds, by omega⟩
  · obtain ⟨expiry', ⟨row, owner, lease', found', _, byOwner, present', until'⟩, outlasts⟩ :=
      before runId run found wasActive
    -- both describe the one lease of the one run
    obtain rfl := Option.some.inj (found.symm.trans found')
    obtain rfl := Option.some.inj (byWorker.symm.trans byOwner)
    obtain rfl := Option.some.inj (present.symm.trans present')
    exact ⟨expiry, holds, by omega⟩

theorem recoveryInv_inductive :
    (deployment.restrict RecoversInTime).Inductive RecoveryInv where
  initial world start := by
    refine ⟨locksInv_inductive.initial world start, ?_, ?_⟩
    · obtain rfl := start
      intro _ _ found
      cases found
    · obtain rfl := start
      intro _ _ _ found
      cases found
  preserved world action world' inv step := by
    obtain ⟨inTime, step⟩ := System.restrict_step.mp step
    have effect := effect_of_step step
    refine ⟨locksInv_inductive.preserved _ _ _ inv.locks step,
      leased_of_effect inv.leased effect, ?_⟩
    intro id worker' begun found iterating
    have passed := clock_le_of_step step
    rcases begun?_of_step step found iterating with ⟨worker, before, within⟩ | ⟨rfl, rfl⟩
    · obtain ⟨past, outlast⟩ := inv.iterations id worker begun before within
      exact ⟨by omega, fun _ _ found' active =>
        leases_outlast inv.leased effect past outlast found' active⟩
    · refine ⟨passed, fun _ _ found' active =>
        leases_outlast inv.leased effect (Nat.le_refl _) ?_ found' active⟩
      -- at the beginning of an iteration every active run has an unexpired lease
      intro runId run present isActive
      obtain ⟨workerId, lease, byWorker, stored⟩ := inv.leased runId run present isActive
      have unexpired := inTime.2 rfl run (Table.mem_of_lookup present) isActive workerId byWorker
        lease stored
      exact ⟨lease.expiresAt, ⟨run, workerId, lease, present, isActive, byWorker, stored, rfl⟩,
        unexpired⟩

/-- **No run is left stuck in a deployment that recovers in time.** -/
theorem noRunLeftStuck_of_recoversInTime {world : World}
    (reached : (deployment.restrict RecoversInTime).Reachable world) :
    NoRunLeftStuck (deployment.restrict RecoversInTime) world where
  restart id worker world' found step runId run present leftBehind later onwards := by
    obtain ⟨inTime, step⟩ := System.restrict_step.mp step
    have inv := recoveryInv_inductive.of_reachable reached
    have expired := inTime.1 worker found run (Table.mem_of_lookup present) leftBehind
    obtain ⟨active, byWorker, _⟩ := leftBehind
    have ended : Ended runId world' :=
      ended_of_recovery inv.leased (recovered_of_step found step) expired present active byWorker
    have reached' : deployment.Reachable later :=
      (reached.of_restrict.step step).leads onwards.of_restrict
    exact unlocked_of_ended (locksInv_inductive.of_reachable reached')
      (ended_of_leads ended onwards.of_restrict)
  iteration id worker begun action world' worker' found within step _ _ runId run present
      active := by
    obtain ⟨_, step⟩ := System.restrict_step.mp step
    have inv := recoveryInv_inductive.of_reachable reached
    obtain ⟨past, outlast⟩ := inv.iterations id worker begun found within
    obtain ⟨expiry, ⟨row, workerId, lease, found', _, byWorker, stored, rfl⟩, outlasts⟩ :=
      leases_outlast inv.leased (effect_of_step step) past outlast present active
    obtain rfl := Option.some.inj (present.symm.trans found')
    exact ⟨workerId, lease, byWorker, stored, outlasts⟩

/-- The worker dies with its run and restarts under its id when its lease has
expired. -/
def restartLate : List Action :=
  firstClaim ++ [.tick 1000000, .crash 1, .tick 30000000, .spawn 2 "a" .default]

theorem noRunLeftStuck_restartLate : ∃ world world',
    deployment.exec .start restartLate = some world ∧
    deployment.step world (.worker 2 .recoverStale) = some world' ∧
    ∀ later, (deployment.restrict RecoversInTime).Leads world' later →
      ∀ host lock, later.store.locks.lookup host = some lock → lock.holder ≠ .run 1 := by
  have ran : (deployment.exec .start restartLate).bind (fun world =>
      (world.workers.lookup 2).bind fun worker =>
        (deployment.step world (.worker 2 .recoverStale)).bind fun _ =>
          (world.store.runs.lookup 1).map fun run =>
            (decide (LeftBehind world worker.workerId run),
              decide (RecoversInTime world (.worker 2 .recoverStale)))) =
      some (true, true) := by decide
  have along : deployment.Along RecoversInTime .start restartLate := by decide
  obtain ⟨world, done, ran⟩ := Option.bind_eq_some_iff.mp ran
  obtain ⟨worker, found, ran⟩ := Option.bind_eq_some_iff.mp ran
  obtain ⟨world', step, ran⟩ := Option.bind_eq_some_iff.mp ran
  obtain ⟨run, present, ran⟩ := Option.map_eq_some_iff.mp ran
  simp only [Prod.mk.injEq, decide_eq_true_eq] at ran
  obtain ⟨leftBehind, inTime⟩ := ran
  have reached : (deployment.restrict RecoversInTime).Reachable world :=
    ⟨.start, rfl, System.leads_restrict_of_exec done along⟩
  refine ⟨world, world', done, step, ?_⟩
  intro later onwards
  exact ((noRunLeftStuck_of_recoversInTime reached).restart 2 worker world' found
    (System.restrict_step.mpr ⟨inTime, step⟩) 1 run present leftBehind later onwards).2

/-! ## The defect -/

/-- The worker dies with its run and restarts under its id within a second. -/
def restartEarly : List Action :=
  firstClaim ++ [.tick 1000000, .crash 1, .spawn 2 "a" .default]

/-- The worker dies with its run, while another one is in its main loop. -/
def iterateLater : List Action :=
  .spawn 2 "b" .default :: .worker 2 .recoverStale :: firstClaim ++
    [.crash 1, .tick 31000000, .worker 2 .beginIteration, .worker 2 .heartbeat]

theorem restart_leaves_run : ¬ ∀ world, deployment.Reachable world →
    RestartsRecover deployment world := by
  intro recovers
  have ran : (deployment.exec .start restartEarly).bind (fun world =>
      (world.workers.lookup 2).bind fun worker =>
        (deployment.step world (.worker 2 .recoverStale)).bind fun world' =>
          (world.store.runs.lookup 1).bind fun run =>
            (world'.store.runs.lookup 1).map fun run' =>
              (decide (LeftBehind world worker.workerId run), run'.status.active)) =
      some (true, true) := by decide
  obtain ⟨world, done, ran⟩ := Option.bind_eq_some_iff.mp ran
  obtain ⟨worker, found, ran⟩ := Option.bind_eq_some_iff.mp ran
  obtain ⟨world', step, ran⟩ := Option.bind_eq_some_iff.mp ran
  obtain ⟨run, present, ran⟩ := Option.bind_eq_some_iff.mp ran
  obtain ⟨run', present', ran⟩ := Option.map_eq_some_iff.mp ran
  simp only [Prod.mk.injEq, decide_eq_true_eq] at ran
  have inactive := (recovers world (reachable_of_exec done) 2 worker world' found step 1 run present
    ran.1 world' (.refl _)).1 run' present'
  cases inactive.symm.trans ran.2

theorem iteration_leaves_run : ¬ ∀ world, deployment.Reachable world →
    IterationsRecover deployment world := by
  intro recovers
  have ran : (deployment.exec .start iterateLater).bind (fun world =>
      (world.workers.lookup 2).bind fun worker =>
        (deployment.step world (.worker 2 (.claim []))).bind fun world' =>
          (world'.workers.lookup 2).bind fun worker' =>
            (world'.store.runs.lookup 1).bind fun run =>
              (world'.store.leases.lookup "a").map fun lease =>
                (worker.stage.begun?, worker'.stage, run.status.active, run.claimedBy,
                  lease.expiresAt)) =
      some (some 31000000, .idle, true, some "a", 30000000) := by decide
  obtain ⟨world, done, ran⟩ := Option.bind_eq_some_iff.mp ran
  obtain ⟨worker, found, ran⟩ := Option.bind_eq_some_iff.mp ran
  obtain ⟨world', step, ran⟩ := Option.bind_eq_some_iff.mp ran
  obtain ⟨worker', found', ran⟩ := Option.bind_eq_some_iff.mp ran
  obtain ⟨run, present, ran⟩ := Option.bind_eq_some_iff.mp ran
  obtain ⟨lease, leased, ran⟩ := Option.map_eq_some_iff.mp ran
  simp only [Prod.mk.injEq] at ran
  obtain ⟨begun, idle, active, byWorker, expired⟩ := ran
  obtain ⟨owner, row, byOwner, stored, outlasts⟩ := recovers world (reachable_of_exec done) 2 worker
    31000000 _ world' worker' found begun step found' idle 1 run present active
  obtain rfl := Option.some.inj (byOwner.symm.trans byWorker)
  obtain rfl := Option.some.inj (leased.symm.trans stored)
  omega

/-- **Both ways of recovering leave an abandoned run active.** -/
theorem noRunLeftStuck_fails :
    (¬ ∀ world, deployment.Reachable world → RestartsRecover deployment world) ∧
    (¬ ∀ world, deployment.Reachable world → IterationsRecover deployment world) ∧
    ¬ ∀ world, deployment.Reachable world → NoRunLeftStuck deployment world :=
  ⟨restart_leaves_run, iteration_leaves_run, fun holds =>
    restart_leaves_run fun world reached => (holds world reached).restart⟩

end OpsComposer.Cluster
