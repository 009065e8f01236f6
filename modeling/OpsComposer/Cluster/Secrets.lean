import OpsComposer.Cluster.Lifecycle

/-!
# Stored secret inputs

A run that was created with sensitive parameters has a row of
`run_secret_inputs` with their envelope: a creation stores it, the worker that
executes the run deletes it, and no other step touches it (`SecretChange`).

So a run that ends before its worker has consumed the row keeps it for good.
`EndsUnconsumed` names the three ways: a cancellation in the queue, an end that
the worker reports, and an interruption by the recovery.
-/

set_option autoImplicit false

namespace OpsComposer.Cluster

open Domain Foundations Repositories Services

variable {action : Action} {run run' : Run} {id : Uuid} {worker : WorkerProcess}
  {world world' : World}

/-! ## How a run ends -/

/-- The writes of a worker process that end the run it executes. -/
def WorkerAction.ends : WorkerAction → Bool
  | .finish .. | .interrupt _ => true
  | _ => false

/-- The steps that end a run, read off the state before: a cancellation in the
queue, an interruption by the start-up recovery, an end that a worker reports. -/
def EndsRun (world : World) (id : Uuid) : Action → Prop
  | .cancelRun runId _ _ => runId = id ∧ ∃ run ∈ world.store.runs.lookup id, run.status = .queued
  | .worker _ .recoverStale => RunRepository.StrandedId world.store world.clock id
  | .worker processId action =>
      action.ends = true ∧ ∃ worker ∈ world.workers.lookup processId, worker.stage.run? = some id
  | _ => False

instance (world : World) (id : Uuid) (action : Action) : Decidable (EndsRun world id action) := by
  unfold EndsRun
  split <;> infer_instance

/-- Every other write of a worker process lets its runs go on. -/
theorem terminal_kept_of_execute {begun : Nat}
    {runId : Uuid} {action : WorkerAction} (goesOn : action.ends = false)
    (step : World.execute world worker begun runId action = some world')
    (found : world.store.runs.lookup id = some run)
    (found' : world'.store.runs.lookup id = some run') (ended : run'.status.terminal = true) :
    run.status.terminal = true := by
  have unless_changed : world'.store.runs = world.store.runs → run.status.terminal = true := by
    intro same
    rw [same, found] at found'
    exact Option.some.inj found' ▸ ended
  cases action with
  | consumeSecrets =>
      obtain ⟨consumed, done, rfl⟩ := Option.map_eq_some_iff.mp step
      obtain ⟨input, _, rfl⟩ := Option.map_eq_some_iff.mp done
      exact unless_changed rfl
  | markRunning =>
      obtain rfl := Option.some.inj step
      have marked := RunRepository.markRunning_runs world.store runId world.clock id
      rw [found, Option.map_some] at marked
      obtain rfl := Option.some.inj (found'.symm.trans marked)
      split at ended
      · cases ended
      · exact ended
  | appendEvent eventId draft =>
      obtain ⟨store, done, rfl⟩ := Option.map_eq_some_iff.mp step
      obtain ⟨⟨row, stored⟩, appended, rfl⟩ := Option.map_eq_some_iff.mp done
      obtain ⟨old, appends⟩ := RunRepository.appends_of_appendEvent appended
      rw [World.moved_store, appends.runs] at found'
      split at found'
      · rename_i same
        obtain rfl := Option.some.inj (appends.found.symm.trans (same ▸ found))
        obtain rfl := Option.some.inj found'
        exact ended
      · rw [found] at found'
        exact Option.some.inj found' ▸ ended
  | finishTarget runTargetId hostId result =>
      simp only [World.execute] at step
      split at step
      · obtain rfl := Option.some.inj step
        exact unless_changed rfl
      · cases step
  | finish eventId outcome => cases goesOn
  | monitorHeartbeat | fail =>
      obtain rfl := Option.some.inj step
      exact unless_changed rfl
  | _ => cases step

theorem terminal_kept_of_work {action : WorkerAction} (goesOn : action.ends = false)
    (recoversNot : action ≠ .recoverStale) (step : World.work world worker action = some world')
    (found : world.store.runs.lookup id = some run)
    (found' : world'.store.runs.lookup id = some run') (ended : run'.status.terminal = true) :
    run.status.terminal = true := by
  unfold World.work at step
  split at step
  case h_1 => exact absurd rfl recoversNot
  case h_4 begun skipped _ =>
    simp only at step
    split at step
    · rename_i idle
      obtain rfl := Option.some.inj step
      have same : (WorkerCoordinator.claim worker.settings worker.workerId world.store world.clock
          skipped).2.runs = world.store.runs := by
        rcases WorkerCoordinator.claim_idle idle with same | same <;> rw [same] <;> rfl
      rw [World.moved_store, same, found] at found'
      exact Option.some.inj found' ▸ ended
    · rename_i row claimed
      obtain rfl := Option.some.inj step
      obtain ⟨old, _, claims⟩ := WorkerCoordinator.claim_claimed claimed
      rw [World.moved_store, claims.runs] at found'
      split at found'
      · obtain rfl := Option.some.inj found'
        cases ended
      · rw [found] at found'
        exact Option.some.inj found' ▸ ended
  case h_5 => exact terminal_kept_of_execute goesOn step found found' ended
  case h_8 => cases goesOn
  case h_10 => cases step
  all_goals
    obtain rfl := Option.some.inj step
    have same : world.store.runs.lookup id = some run' := found'
    rw [found] at same
    exact Option.some.inj same ▸ ended

/-- **A run ends only by the three ways of `EndsRun`.** -/
theorem endsRun_of_step
    (step : world.step action = some world') (found : world.store.runs.lookup id = some run)
    (live : run.status.terminal = false) (found' : world'.store.runs.lookup id = some run')
    (ended : run'.status.terminal = true) : EndsRun world id action := by
  have effect := effect_of_step step
  obtain ⟨store, stored⟩ : ∃ store, store = world'.store := ⟨_, rfl⟩
  rw [← stored] at found' effect
  have moves : store.runs.lookup id ≠ some run := by
    intro same
    rw [found'] at same
    rw [Option.some.inj same, live] at ended
    cases ended
  have rows_move : store.runs ≠ world.store.runs := by
    intro same
    exact moves (same ▸ found)
  cases effect with
  | quiet same | renew _ _ same | report _ _ _ _ _ same | closeShell same | dropShells _ same =>
      exact absurd same.runs rows_move
  | create creates =>
      refine absurd ?_ moves
      rw [creates.runs, if_neg, found]
      rintro rfl
      exact Table.not_free creates.runFree found
  | @cancel runId _ _ current _ cancels =>
      rw [cancels.runs] at moves found'
      split at moves
      · rename_i same
        subst same
        rw [if_pos rfl] at found'
        obtain rfl := Option.some.inj (cancels.found.symm.trans found)
        refine ⟨rfl, current, found, ?_⟩
        by_contra unqueued
        obtain rfl := Option.some.inj found'
        simp [RunRepository.canceledBy, unqueued, live] at ended
      · exact absurd found moves
  | recover _ _ same =>
      rw [same.runs, RunRepository.recoverStale_runs, found, Option.map_some] at moves
      refine ⟨run, found, ?_⟩
      by_contra spared
      exact moves (by rw [if_neg spared])
  | claim _ claims =>
      rw [claims.runs] at found' moves
      split at moves
      · rename_i same
        rw [if_pos same] at found'
        obtain rfl := Option.some.inj found'
        cases ended
      · exact absurd found moves
  | start _ _ same =>
      rw [same.runs, RunRepository.markRunning_runs, found, Option.map_some] at found'
      obtain rfl := Option.some.inj found'
      split at ended
      · cases ended
      · rw [live] at ended
        cases ended
  | append _ _ _ appends =>
      rw [appends.runs] at found' moves
      split at moves
      · rename_i same
        rw [if_pos same] at found'
        obtain rfl := Option.some.inj (appends.found.symm.trans (same ▸ found))
        obtain rfl := Option.some.inj found'
        exact absurd ended (by rw [live]; exact Bool.false_ne_true)
      · exact absurd found moves
  | @finish worker action runId _ _ _ _ present executing _ _ finishes =>
      rw [finishes.runs] at moves
      split at moves
      · rename_i same
        subst same
        have stepped : World.work world worker action = some world' := by
          simpa only [World.step, present] using step
        cases action with
        | finish eventId outcome | interrupt eventId => exact ⟨rfl, worker, present, executing⟩
        | recoverStale =>
            unfold World.work at stepped
            split at stepped <;> simp_all [Stage.run?, World.execute]
        | _ =>
            have stayed := terminal_kept_of_work rfl (by simp) stepped found (stored ▸ found') ended
            rw [live] at stayed
            cases stayed
      · exact absurd found moves
  | openShell opens => exact absurd opens.runs rows_move
  | activateShell activates => exact absurd activates.runs rows_move
  | refreshShell => exact absurd rfl rows_move

/-- The status in which a step that ends a run leaves it. -/
def Action.endStatus : Action → RunStatus
  | .cancelRun .. => .canceled
  | .worker _ (.finish _ outcome) => outcome.status
  | _ => .interrupted

/-- Each of the three ways does end the run. -/
theorem status_of_endsRun
    (step : world.step action = some world') (ends : EndsRun world id action) :
    ∃ run', world'.store.runs.lookup id = some run' ∧ run'.status = action.endStatus ∧
      run'.status.terminal = true := by
  unfold EndsRun at ends
  split at ends
  · obtain ⟨rfl, run, found, queued⟩ := ends
    simp only [World.step] at step
    split at step
    · rename_i canceled
      obtain rfl := Option.some.inj step
      obtain ⟨current, cancels⟩ := RunService.cancel_spec canceled
      obtain rfl := Option.some.inj (cancels.found.symm.trans found)
      refine ⟨_, (cancels.runs _).trans (if_pos rfl), ?_, ?_⟩
      · simp [RunRepository.canceledBy, queued, Action.endStatus]
      · simp [RunRepository.canceledBy, queued, RunStatus.terminal]
    · cases step
  · rename_i processId
    obtain ⟨run, found, stranded⟩ := ends
    simp only [World.step] at step
    split at step
    · cases step
    rename_i worker _
    have recovered : world'.store.runs =
        (RunRepository.recoverStale world.store world.clock).2.runs := by
      unfold World.work at step
      split at step
      case h_1 =>
        obtain rfl := Option.some.inj step
        simp only [World.moved_store, WorkerCoordinator.recoverStale]
        split <;> rfl
      all_goals simp_all [World.execute]
    refine ⟨RunRepository.interruptedBy world.clock run, ?_, rfl, rfl⟩
    rw [recovered, RunRepository.recoverStale_runs, found, Option.map_some, if_pos stranded]
  · rename_i processId action _
    obtain ⟨finishes, worker, found, executing⟩ := ends
    simp only [World.step] at step
    rw [found] at step
    have finished : ∃ eventId outcome stored stage, outcome.status.terminal = true ∧
        outcome.status = (Action.worker processId action).endStatus ∧
        WorkerCoordinator.finish worker.workerId world.store id eventId outcome world.clock =
          some stored ∧ world' = world.moved worker stage stored.2 := by
      cases action with
      | finish eventId outcome =>
          cases stage : worker.stage with
          | executing begun runId =>
              obtain rfl : runId = id := by simpa [stage, Stage.run?] using executing
              simp only [World.work, stage, World.execute] at step
              split at step
              · rename_i terminal
                obtain ⟨stored, done, rfl⟩ := Option.map_eq_some_iff.mp step
                exact ⟨_, _, _, _, terminal, rfl, done, rfl⟩
              · cases step
          | _ => simp [World.work, stage] at step
      | interrupt eventId =>
          cases stage : worker.stage with
          | failed begun activeRun =>
              obtain rfl : activeRun = some id := by simpa [stage, Stage.run?] using executing
              simp only [World.work, stage] at step
              obtain ⟨stored, done, rfl⟩ := Option.map_eq_some_iff.mp step
              exact ⟨_, World.loopFailure, _, _, rfl, rfl, done, rfl⟩
          | _ => simp [World.work, stage, World.execute] at step
      | _ => cases finishes
    obtain ⟨eventId, outcome, ⟨run, store⟩, stage, terminal, status, done, rfl⟩ := finished
    obtain ⟨old, finishes⟩ := WorkerCoordinator.finish_spec done
    exact ⟨_, (finishes.runs id).trans (if_pos rfl), status, terminal⟩
  · exact ends.elim

/-! ## Secret inputs of live runs only -/

/-- Every stored row of secret inputs belongs to a run that has not ended. -/
def SecretsLive (store : Store) : Prop :=
  ∀ id input, store.secretInputs.lookup id = some input →
    ∃ run, store.runs.lookup id = some run ∧ run.status.terminal = false

/-- The step ends a run whose secret inputs are still stored. -/
def EndsUnconsumed (world : World) (action : Action) : Prop :=
  ∃ input ∈ world.store.secretInputs.rows, EndsRun world input.runId action

instance (world : World) (action : Action) : Decidable (EndsUnconsumed world action) := by
  unfold EndsUnconsumed
  infer_instance

/-- A step that ends a run leaves the stored secret inputs alone. -/
theorem secretInputs_of_endsRun (step : world.step action = some world')
    (ends : EndsRun world id action) : world'.store.secretInputs = world.store.secretInputs := by
  obtain ⟨store, stored⟩ : ∃ store, store = world'.store := ⟨_, rfl⟩
  have change := secretChange_of_step step
  rw [← stored] at change ⊢
  cases change with
  | kept same => exact same
  | stored creates => exact ends.elim
  | consumed _ _ _ _ => cases ends.1

/-- A row that is there after a step was there before it, or is that of a run
which the step has put into the queue. -/
theorem secretInput_of_change {store : Store} (change : SecretChange world action store)
    {input : RunSecretInput} (present : store.secretInputs.lookup id = some input) :
    world.store.secretInputs.lookup id = some input ∨
      ∃ run, store.runs.lookup id = some run ∧ run.status = .queued := by
  cases change with
  | kept same => exact .inl (same ▸ present)
  | @stored draft _ _ creates =>
      cases creates.secrets with
      | none _ same => exact .inl (same ▸ present)
      | some row ofDraft _ added =>
          rw [added] at present
          rcases Table.lookup_put_eq_some.mp present with ⟨named, _⟩ | ⟨_, before⟩
          · refine .inr ⟨_, (creates.runs id).trans (if_pos ?_), rfl⟩
            obtain ⟨_, _, rfl⟩ := Option.map_eq_some_iff.mp ofDraft
            exact named
          · exact .inl before
  | consumed _ _ _ gone =>
      rw [gone] at present
      exact .inl (Table.lookup_delete_eq_some.mp present).1

/-- **One step** keeps the stored secret inputs with live runs exactly when it
does not end a run before its consumption. -/
theorem secretsLive_step_iff
    (live : SecretsLive world.store) (step : world.step action = some world') :
    SecretsLive world'.store ↔ ¬ EndsUnconsumed world action := by
  constructor
  · rintro live' ⟨input, member, ends⟩
    have same := secretInputs_of_endsRun step ends
    have present : world'.store.secretInputs.lookup input.runId = some input := by
      rw [same]
      exact Table.lookup_of_mem member
    obtain ⟨run, found, open?⟩ := live' _ _ present
    obtain ⟨run', found', _, ended⟩ := status_of_endsRun step ends
    obtain rfl := Option.some.inj (found.symm.trans found')
    rw [open?] at ended
    cases ended
  · intro spares id input present
    rcases secretInput_of_change (secretChange_of_step step) present with before | ⟨run, fresh, queued⟩
    · obtain ⟨run, found, open?⟩ := live id input before
      obtain ⟨run', found', _⟩ := runChange_of_effect (effect_of_step step) found
      refine ⟨run', found', ?_⟩
      by_contra ended
      have ends := endsRun_of_step step found open? found' (Bool.not_eq_false _ ▸ ended)
      have named : input.runId = id := Table.key_of_lookup before
      exact spares ⟨input, Table.mem_of_lookup before, named ▸ ends⟩
    · exact ⟨run, fresh, by rw [queued]; rfl⟩

theorem secretsLive_inductive :
    (deployment.restrict fun world action => ¬ EndsUnconsumed world action).Inductive
      fun world => SecretsLive world.store where
  initial world start := by
    obtain rfl := start
    intro id input impossible
    cases impossible
  preserved world action world' live step := by
    obtain ⟨spares, step⟩ := System.restrict_step.mp step
    exact (secretsLive_step_iff live step).mpr spares

/-- **Secret inputs are stored for live runs only**, as long as no run ends
before its worker has consumed them. -/
theorem secretsLive_without_endsUnconsumed {world : World}
    (reached : (deployment.restrict fun world action =>
      ¬ EndsUnconsumed world action).Reachable world) : SecretsLive world.store :=
  secretsLive_inductive.of_reachable reached

/-- A ping with a sensitive parameter. -/
def sealedDraft : RunService.Draft :=
  { pingDraft 1 1 with secretInput := some ([7], 1, ["token"]) }

/-- A worker claims the run, consumes its secret inputs and ends it. -/
def consumeThenFinish : List Action :=
  .createRun sealedDraft [] :: claimOnce 1 "a" ++
    [.worker 1 .consumeSecrets, .worker 1 .markRunning,
      .worker 1 (.finish 2 { status := .succeeded })]

theorem secretsLive_consumeThenFinish : ∃ world,
    deployment.exec .start consumeThenFinish = some world ∧
    (world.store.runs.lookup 1).map Run.status = some .succeeded ∧ SecretsLive world.store := by
  have ran : (deployment.exec .start consumeThenFinish).bind
      (fun world => (world.store.runs.lookup 1).map Run.status) = some .succeeded := by decide
  have along : deployment.Along (fun world action => ¬ EndsUnconsumed world action) .start
      consumeThenFinish := by decide
  obtain ⟨world, done, status⟩ := Option.bind_eq_some_iff.mp ran
  exact ⟨world, done, status, secretsLive_without_endsUnconsumed
    ⟨.start, rfl, System.leads_restrict_of_exec done along⟩⟩

/-! ## The defect -/

/-- **A run that is canceled in the queue keeps its secret inputs.** -/
theorem secretsLive_fails :
    ¬ ∀ world, deployment.Reachable world → SecretsLive world.store := by
  intro live
  have ran : (deployment.exec .start [.createRun sealedDraft [], .cancelRun 1 1 2]).bind
      (fun world => (world.store.secretInputs.lookup 1).bind fun _ =>
        (world.store.runs.lookup 1).map Run.status) = some .canceled := by decide
  obtain ⟨world, done, ran⟩ := Option.bind_eq_some_iff.mp ran
  obtain ⟨input, stored, ran⟩ := Option.bind_eq_some_iff.mp ran
  obtain ⟨run, found, canceled⟩ := Option.map_eq_some_iff.mp ran
  obtain ⟨run', found', open?⟩ := live world (reachable_of_exec done) 1 input stored
  obtain rfl := Option.some.inj (found.symm.trans found')
  rw [canceled] at open?
  cases open?

end OpsComposer.Cluster
