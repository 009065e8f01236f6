import OpsComposer.Cluster.Secrets

/-!
# Who executes a run

A run is executed by at most one worker process in its life: only a claim makes
a process execute a run, a claim takes the run from the queue, and no run comes
back to the queue.  While a process executes an active run, nobody but this
process and the recovery can end it (`active_of_step`).
-/

set_option autoImplicit false

namespace OpsComposer.Cluster

open Domain Foundations Repositories Services

/-! ## Processes from step to step -/

/-- The process that an action moves or ends. -/
def Action.process? : Action → Option Uuid
  | .worker processId _ => some processId
  | .crash processId => some processId
  | _ => none

variable {action : Action} {begun : Nat} {id runId : Uuid} {worker : WorkerProcess}
  {world world' : World}

/-- A process stays as it is under the actions of all others. -/
theorem worker_kept_of_step (step : world.step action = some world')
    (found : world.workers.lookup id = some worker) (other : action.process? ≠ some id) :
    world'.workers.lookup id = some worker := by
  cases action with
  | tick elapsed | authenticate logins users =>
      obtain rfl := Option.some.inj step
      exact found
  | createRun draft unconfirmed | cancelRun runId requestedBy eventId =>
      simp only [World.step] at step
      split at step
      · obtain rfl := Option.some.inj step
        exact found
      · cases step
  | spawn processId workerId settings =>
      obtain ⟨workers, inserted, rfl⟩ := Option.map_eq_some_iff.mp step
      obtain ⟨free, rfl⟩ := Table.insert?_eq_some.mp inserted
      refine Table.lookup_put_eq_some.mpr (.inr ⟨?_, found⟩)
      rintro rfl
      exact Table.not_free free found
  | crash processId =>
      obtain rfl := Option.some.inj step
      refine Table.lookup_delete_eq_some.mpr ⟨found, ?_⟩
      rintro rfl
      exact other (congrArg some (Table.key_of_lookup found).symm ▸ rfl)
  | worker processId action =>
      simp only [World.step] at step
      split at step
      · cases step
      rename_i present
      obtain ⟨stage, store, rfl, _⟩ := moved_of_work step
      refine Table.lookup_put_eq_some.mpr (.inr ⟨?_, found⟩)
      intro same
      exact other (congrArg some ((Table.key_of_lookup present).symm.trans same))
  | shell action =>
      obtain ⟨store, _, rfl⟩ := Option.map_eq_some_iff.mp step
      exact found

/-- The writes of an executing process that leave it executing. -/
def WorkerAction.goesOn : WorkerAction → Bool
  | .finish .. | .interrupt _ | .fail => false
  | _ => true

/-- A process goes on executing its run after a write that does not end it. -/
theorem executing_of_execute {action : WorkerAction} (goesOn : action.goesOn = true)
    (step : World.execute world worker begun runId action = some world') :
    ∃ store, world' = world.moved worker worker.stage store := by
  cases action with
  | consumeSecrets =>
      obtain ⟨consumed, _, rfl⟩ := Option.map_eq_some_iff.mp step
      exact ⟨_, rfl⟩
  | monitorHeartbeat | markRunning => exact ⟨_, (Option.some.inj step).symm⟩
  | appendEvent eventId draft =>
      obtain ⟨store, _, rfl⟩ := Option.map_eq_some_iff.mp step
      exact ⟨_, rfl⟩
  | finishTarget runTargetId hostId result =>
      simp only [World.execute] at step
      split at step
      · exact ⟨_, (Option.some.inj step).symm⟩
      · cases step
  | finish eventId outcome | fail => cases goesOn
  | _ => cases step

/-- A process that executes a run executed it before the step, or has just
claimed it from the queue. -/
theorem executing_of_step (step : world.step action = some world') {worker' : WorkerProcess}
    {runId : Nat} (found : world'.workers.lookup id = some worker')
    (executing : worker'.stage = .executing begun runId) :
    (∃ worker, world.workers.lookup id = some worker ∧ worker.stage = .executing begun runId) ∨
    (∃ skipped, action = .worker id (.claim skipped)) ∧
      (∃ run, world.store.runs.lookup runId = some run ∧ run.status = .queued) ∧
      ∃ run', world'.store.runs.lookup runId = some run' ∧ run'.status = .preparing := by
  cases worker_of_step step found with
  | kept before => exact .inl ⟨worker', before, executing⟩
  | spawned starting =>
      rw [starting] at executing
      cases executing
  | @moved worker action before _ _ =>
      have named := Table.key_of_lookup before
      simp only [World.step, before] at step
      unfold World.work at step
      split at step
      case h_4 =>
        simp only at step
        split at step
        · obtain rfl := Option.some.inj step
          rw [World.moved, ← named, Table.lookup_put_self] at found
          obtain rfl := Option.some.inj found
          cases executing
        · rename_i run claimed
          obtain rfl := Option.some.inj step
          obtain ⟨old, rfl, claims⟩ := WorkerCoordinator.claim_claimed claimed
          rw [World.moved, ← named, Table.lookup_put_self] at found
          obtain rfl := Option.some.inj found
          simp only [Stage.executing.injEq] at executing
          obtain ⟨rfl, rfl⟩ := executing
          exact .inr ⟨⟨_, rfl⟩, ⟨old, claims.found, claims.queued⟩,
            _, (claims.runs _).trans (if_pos rfl), rfl⟩
      case h_5 =>
        rename_i action _ _ _ _ _ _
        by_cases goesOn : action.goesOn = true
        · obtain ⟨store, rfl⟩ := executing_of_execute goesOn step
          rw [World.moved, ← named, Table.lookup_put_self] at found
          obtain rfl := Option.some.inj found
          exact .inl ⟨worker, before, executing⟩
        · -- the last write and the exception both lead out of the execution
          cases action with
          | finish eventId outcome =>
              simp only [World.execute] at step
              split at step
              · obtain ⟨done, _, rfl⟩ := Option.map_eq_some_iff.mp step
                rw [World.moved, ← named, Table.lookup_put_self] at found
                obtain rfl := Option.some.inj found
                cases executing
              · cases step
          | fail =>
              obtain rfl := Option.some.inj step
              rw [World.moved, ← named, Table.lookup_put_self] at found
              obtain rfl := Option.some.inj found
              cases executing
          | interrupt eventId => cases step
          | _ => exact absurd rfl goesOn
      case h_10 => cases step
      case h_8 =>
        obtain ⟨done, _, rfl⟩ := Option.map_eq_some_iff.mp step
        rw [World.moved, ← named, Table.lookup_put_self] at found
        obtain rfl := Option.some.inj found
        cases executing
      all_goals
        obtain rfl := Option.some.inj step
        rw [World.moved, ← named, Table.lookup_put_self] at found
        obtain rfl := Option.some.inj found
        cases executing

/-- No two processes execute one run. -/
def SoleExecutors (world : World) : Prop :=
  ∀ id id' worker worker' begun begun' runId, world.workers.lookup id = some worker →
    worker.stage = .executing begun runId → world.workers.lookup id' = some worker' →
    worker'.stage = .executing begun' runId → id = id'

/-- The run of a process that executes one has left the queue. -/
theorem unqueued_of_executing (inv : LifecycleInv world) {runId : Nat} {run : Run}
    (found : world.workers.lookup id = some worker)
    (executing : worker.stage = .executing begun runId)
    (present : world.store.runs.lookup runId = some run) : run.status ≠ .queued :=
  inv.claimed.unqueued inv.rows found (by rw [executing]; rfl) present

theorem soleExecutors_of_step (inv : LifecycleInv world) (sole : SoleExecutors world)
    (step : world.step action = some world') : SoleExecutors world' := by
  intro id id' worker worker' begun begun' runId found executing found' executing'
  rcases executing_of_step step found executing with ⟨old, before, stage⟩ | ⟨⟨_, mine⟩, fresh, _⟩ <;>
    rcases executing_of_step step found' executing' with
      ⟨old', before', stage'⟩ | ⟨⟨_, other⟩, fresh', _⟩
  · exact sole id id' old old' begun begun' runId before stage before' stage'
  · obtain ⟨run, present, queued⟩ := fresh'
    exact absurd queued (unqueued_of_executing inv before stage present)
  · obtain ⟨run, present, queued⟩ := fresh
    exact absurd queued (unqueued_of_executing inv before' stage' present)
  · rw [mine] at other
    simp only [Action.worker.injEq] at other
    exact other.1

/-! ## Active runs -/

/-- **How an active run ends**: it is interrupted, or the process that executes
it ends it. -/
theorem active_of_step (step : world.step action = some world') {run run' : Run}
    (found : world.store.runs.lookup id = some run) (active : run.status.active = true)
    (found' : world'.store.runs.lookup id = some run') :
    run'.status.active = true ∨ run'.status = .interrupted ∨
      ∃ processId eventId outcome, action = .worker processId (.finish eventId outcome) ∧
        (∃ worker begun, world.workers.lookup processId = some worker ∧
          worker.stage = .executing begun id) ∧ run'.status = outcome.status := by
  by_cases ended : run'.status.terminal = true
  · have live := RunStatus.not_terminal_of_active active
    have ends := endsRun_of_step step found live found' ended
    obtain ⟨row, present, status, _⟩ := status_of_endsRun step ends
    obtain rfl := Option.some.inj (present.symm.trans found')
    unfold EndsRun at ends
    split at ends
    · obtain ⟨rfl, old, present, queued⟩ := ends
      obtain rfl := Option.some.inj (found.symm.trans present)
      rw [queued] at active
      cases active
    · exact .inr (.inl status)
    · rename_i processId action _
      obtain ⟨finishes, worker, located, executing⟩ := ends
      cases action with
      | finish eventId outcome =>
          refine .inr (.inr ⟨processId, eventId, outcome, rfl, ?_, status⟩)
          -- only an executing process has a last write
          cases stage : worker.stage with
          | executing begun runId =>
              obtain rfl : runId = id := by simpa [stage, Stage.run?] using executing
              exact ⟨worker, begun, located, stage⟩
          | _ =>
              have refused := step
              rw [World.step, located] at refused
              simp [World.work, stage] at refused
      | interrupt eventId => exact .inr (.inl status)
      | _ => cases finishes
    · exact ends.elim
  · obtain ⟨row, present, change⟩ := runChange_of_effect (effect_of_step step) found
    obtain rfl := Option.some.inj (present.symm.trans found')
    cases change with
    | kept status _ _ => exact .inl (by rw [status, active])
    | canceled queued _ _ =>
        rw [queued] at active
        cases active
    | claimed _ status _ _ | started _ status _ => exact .inl (by rw [status]; rfl)
    | ended _ status _ => exact absurd status ended

/-- A run that a process executes is active or has been interrupted. -/
def ExecutedOk (world : World) : Prop :=
  ∀ id worker begun runId run, world.workers.lookup id = some worker →
    worker.stage = .executing begun runId → world.store.runs.lookup runId = some run →
    run.status.active = true ∨ run.status = .interrupted

/-- The last write of a process leads out of its execution. -/
theorem not_executing_of_finish {eventId : Uuid} {outcome : RunRepository.Outcome}
    (step : world.step (.worker id (.finish eventId outcome)) = some world')
    {worker' : WorkerProcess} {runId : Nat} (found : world'.workers.lookup id = some worker') :
    worker'.stage ≠ .executing begun runId := by
  intro executing
  simp only [World.step] at step
  split at step
  · cases step
  rename_i worker before
  have named := Table.key_of_lookup before
  cases stage : worker.stage with
  | executing earlier executed =>
      simp only [World.work, stage, World.execute] at step
      split at step
      · obtain ⟨done, _, rfl⟩ := Option.map_eq_some_iff.mp step
        rw [World.moved, ← named, Table.lookup_put_self] at found
        obtain rfl := Option.some.inj found
        cases executing
      · cases step
  | _ => simp [World.work, stage] at step

theorem executedOk_of_step (inv : LifecycleInv world) (sole : SoleExecutors world)
    (ok : ExecutedOk world) (step : world.step action = some world') : ExecutedOk world' := by
  intro id worker' begun runId run' found executing found'
  rcases executing_of_step step found executing with ⟨worker, before, stage⟩ | ⟨_, _, row, present, status⟩
  · obtain ⟨run, present, _⟩ := inv.claimed id worker runId before (by rw [stage]; rfl)
    rcases ok id worker begun runId run before stage present with active | interrupted
    · rcases active_of_step step present active found' with stays | status | ended
      · exact .inl stays
      · exact .inr status
      · obtain ⟨processId, eventId, outcome, rfl, ⟨other, earlier, located, stage'⟩, _⟩ := ended
        obtain rfl := sole id processId worker other begun earlier runId before stage located stage'
        exact absurd executing (not_executing_of_finish step found)
    · obtain ⟨row, after, change⟩ := runChange_of_effect (effect_of_step step) present
      obtain rfl := Option.some.inj (after.symm.trans found')
      exact .inr ((change.frozen (by rw [interrupted]; rfl)).1.trans interrupted)
  · obtain rfl := Option.some.inj (present.symm.trans found')
    exact .inl (by rw [status]; rfl)

/-! ## Executions from step to step -/

/-- The process executes the run. -/
def Executes (world : World) (id runId : Uuid) : Prop :=
  ∃ worker begun, world.workers.lookup id = some worker ∧ worker.stage = .executing begun runId

/-- A process executes one run at a time. -/
theorem Executes.unique {runId' : Uuid} (executes : Executes world id runId)
    (executes' : Executes world id runId') : runId = runId' := by
  obtain ⟨worker, begun, found, stage⟩ := executes
  obtain ⟨worker', begun', found', stage'⟩ := executes'
  obtain rfl := Option.some.inj (found.symm.trans found')
  rw [stage] at stage'
  simp only [Stage.executing.injEq] at stage'
  exact stage'.2

theorem Executes.sole {id' : Uuid} (sole : SoleExecutors world)
    (executes : Executes world id runId) (executes' : Executes world id' runId) : id = id' := by
  obtain ⟨worker, begun, found, stage⟩ := executes
  obtain ⟨worker', begun', found', stage'⟩ := executes'
  exact sole id id' worker worker' begun begun' runId found stage found' stage'

/-- The actions of all others neither begin nor end an execution of a process. -/
theorem executes_iff_of_step (step : world.step action = some world')
    (other : action.process? ≠ some id) : Executes world' id runId ↔ Executes world id runId := by
  constructor
  · rintro ⟨worker', begun, found, stage⟩
    rcases executing_of_step step found stage with ⟨worker, before, executing⟩ | ⟨⟨_, rfl⟩, _⟩
    · exact ⟨worker, begun, before, executing⟩
    · exact absurd rfl other
  · rintro ⟨worker, begun, found, stage⟩
    exact ⟨worker, begun, worker_kept_of_step step found other, stage⟩

theorem Executes.of_write {action : WorkerAction}
    (executes : Executes world id runId) (step : world.step (.worker id action) = some world')
    (goesOn : action.goesOn = true) : Executes world' id runId := by
  obtain ⟨worker, begun, found, stage⟩ := executes
  have named := Table.key_of_lookup found
  have executed : World.execute world worker begun runId action = some world' := by
    simpa only [World.step, found, World.work, stage] using step
  obtain ⟨store, rfl⟩ := executing_of_execute goesOn executed
  refine ⟨_, begun, ?_, stage⟩
  rw [← named]
  exact Table.lookup_put_self ..

/-- An exception leads out of the execution. -/
theorem not_executes_of_fail
    (step : world.step (.worker id .fail) = some world') : ¬ Executes world' id runId := by
  rintro ⟨worker', begun, found, executing⟩
  simp only [World.step] at step
  split at step
  · cases step
  rename_i worker before
  have named := Table.key_of_lookup before
  have failed : ∃ begun activeRun,
      world' = world.moved worker (.failed begun activeRun) world.store := by
    cases stage : worker.stage with
    | polling earlier | ready earlier =>
        simp only [World.work, stage, Option.some.injEq] at step
        exact ⟨_, _, step.symm⟩
    | executing earlier executed =>
        simp only [World.work, stage, World.execute, Option.some.injEq] at step
        exact ⟨_, _, step.symm⟩
    | _ => simp [World.work, stage] at step
  obtain ⟨_, _, rfl⟩ := failed
  rw [World.moved, ← named, Table.lookup_put_self] at found
  obtain rfl := Option.some.inj found
  cases executing

/-! ## Consumed secret inputs -/

/-- The run has left the queue, and no secret inputs of it are stored. -/
structure Spent (id : Uuid) (world : World) : Prop where
  absent : world.store.secretInputs.lookup id = none
  unqueued : Unqueued id world

/-- Secret inputs that are gone do not come back. -/
theorem Spent.of_step (spent : Spent id world)
    (step : world.step action = some world') : Spent id world' where
  absent := by
    by_contra there
    obtain ⟨input, present⟩ := Option.ne_none_iff_exists'.mp there
    rcases secretInput_of_change (secretChange_of_step step) present with before | fresh
    · exact Table.not_free spent.absent before
    · obtain ⟨run, found, queued⟩ := fresh
      obtain ⟨row, found', out⟩ := unqueued_of_leads spent.unqueued ((System.Leads.refl _).tail step)
      obtain rfl := Option.some.inj (found.symm.trans found')
      exact out queued
  unqueued := unqueued_of_leads spent.unqueued ((System.Leads.refl _).tail step)

/-- **A consumption** finds the row of the run that its process executes, and
spends it. -/
theorem spent_of_consumption (inv : LifecycleInv world) (executes : Executes world id runId)
    (step : world.step (.worker id .consumeSecrets) = some world') :
    (∃ input, world.store.secretInputs.lookup runId = some input) ∧ Spent runId world' := by
  obtain ⟨worker, begun, found, stage⟩ := executes
  obtain ⟨run, present, _⟩ := inv.claimed id worker runId found (by rw [stage]; rfl)
  have unqueued : Unqueued runId world :=
    ⟨run, present, unqueued_of_executing inv found stage present⟩
  have after : Unqueued runId world' := unqueued_of_leads unqueued
    ((System.Leads.refl _).tail (a := .worker id .consumeSecrets) step)
  have executed : World.execute world worker begun runId .consumeSecrets = some world' := by
    simpa only [World.step, found, World.work, stage] using step
  obtain ⟨_, done, rfl⟩ := Option.map_eq_some_iff.mp executed
  obtain ⟨input, stored, rfl⟩ := Option.map_eq_some_iff.mp done
  refine ⟨⟨input, stored⟩, ?_, after⟩
  exact Table.lookup_delete_eq_none.mpr fun row member => Table.key_of_lookup member

/-- After `mark_running` the run of the process is `RUNNING` or has ended. -/
theorem running_of_markRunning (inv : LifecycleInv world)
    (ok : ExecutedOk world) (executes : Executes world id runId)
    (step : world.step (.worker id .markRunning) = some world') :
    (∃ run, world'.store.runs.lookup runId = some run ∧ run.status = .running) ∨
      Ended runId world' := by
  obtain ⟨worker, begun, found, stage⟩ := executes
  obtain ⟨run, present, _⟩ := inv.claimed id worker runId found (by rw [stage]; rfl)
  have executed : World.execute world worker begun runId .markRunning = some world' := by
    simpa only [World.step, found, World.work, stage] using step
  obtain rfl := Option.some.inj executed
  have named : run.runId = runId := Table.key_of_lookup present
  have after : (RunRepository.markRunning world.store runId world.clock).runs.lookup runId =
      some (if run.runId = runId ∧ run.status = .preparing then
        { run with status := .running, updatedAt := world.clock } else run) := by
    rw [RunRepository.markRunning_runs, present, Option.map_some]
  cases status : run.status with
  | preparing =>
      rw [if_pos ⟨named, status⟩] at after
      exact .inl ⟨_, after, rfl⟩
  | running =>
      rw [if_neg (by simp [status])] at after
      exact .inl ⟨_, after, status⟩
  | _ =>
      rcases ok id worker begun runId run found stage present with active | interrupted
      · rw [status] at active
        cases active
      · rw [if_neg (by simp [status])] at after
        exact .inr ⟨_, after, by rw [interrupted]; rfl⟩

/-- Only an active run is ended by the process that executes it. -/
theorem active_of_finish {eventId : Uuid}
    {outcome : RunRepository.Outcome} (executes : Executes world id runId)
    (step : world.step (.worker id (.finish eventId outcome)) = some world') :
    ∃ run, world.store.runs.lookup runId = some run ∧ run.status.active = true := by
  obtain ⟨worker, begun, found, stage⟩ := executes
  have executed : World.execute world worker begun runId (.finish eventId outcome) =
      some world' := by
    simpa only [World.step, found, World.work, stage] using step
  simp only [World.execute] at executed
  split at executed
  · obtain ⟨⟨run, store⟩, done, rfl⟩ := Option.map_eq_some_iff.mp executed
    obtain ⟨old, finishes⟩ := WorkerCoordinator.finish_spec done
    exact ⟨old, finishes.found, finishes.owned.2⟩
  · cases executed

end OpsComposer.Cluster
