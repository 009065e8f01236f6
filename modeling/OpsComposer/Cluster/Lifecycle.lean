import OpsComposer.Cluster.Effect

/-!
# The life cycle of runs and targets

The invariant of the run tables, `RowsOk`: a queued run has no worker and only
pending targets, a run in a terminal status has no open target, and every
target belongs to a run.  Together with `ClaimedByWorkers` — a process executes
only what was claimed under its id — it is inductive, and it carries the three
laws of the life cycle:

* `RunChange.status` — a status only moves along `RunStatus.Moves`;
* `unqueued_of_leads` — a run that has left the queue never comes back, so that
  no two steps claim it;
* `RowsOk.closed` — the end of a run closes all its targets.
-/

set_option autoImplicit false

namespace OpsComposer.Cluster

open Domain Foundations Repositories Services

/-! ## How one run row changes -/

/-- The columns of a run row that a step may change, and when; `claims` says that
the step is a claim. -/
inductive RunChange (claims : Prop) : Run → Run → Prop where
  | kept {run run' : Run} (status : run'.status = run.status)
      (claimedBy : run'.claimedBy = run.claimedBy)
      (result : run'.returnCode = run.returnCode ∧ run'.summary = run.summary ∧
        run'.finishedAt = run.finishedAt) : RunChange claims run run'
  | canceled {run run' : Run} (queued : run.status = .queued) (status : run'.status = .canceled)
      (claimedBy : run'.claimedBy = run.claimedBy) : RunChange claims run run'
  | claimed {run run' : Run} (queued : run.status = .queued) (status : run'.status = .preparing)
      (claimedBy : run'.claimedBy.isSome) (claiming : claims) : RunChange claims run run'
  | started {run run' : Run} (preparing : run.status = .preparing)
      (status : run'.status = .running) (claimedBy : run'.claimedBy = run.claimedBy) :
      RunChange claims run run'
  | ended {run run' : Run} (active : run.status.active = true)
      (status : run'.status.terminal = true) (claimedBy : run'.claimedBy = run.claimedBy) :
      RunChange claims run run'

namespace RunChange

variable {claims : Prop}

theorem refl (run : Run) : RunChange claims run run := .kept rfl rfl ⟨rfl, rfl, rfl⟩

variable {run run' : Run}

/-- **A status stays or moves along the life cycle.** -/
theorem status (change : RunChange claims run run') :
    run'.status = run.status ∨ RunStatus.Moves run.status run'.status := by
  cases change with
  | kept status _ _ => exact .inl status
  | canceled queued status _ => exact .inr (by rw [queued, status]; exact .cancel)
  | claimed queued status _ _ => exact .inr (by rw [queued, status]; exact .claim)
  | started preparing status _ => exact .inr (by rw [preparing, status]; exact .start)
  | ended active status _ => exact .inr (.of_active active status)

/-- A run that was claimed keeps its worker, unless it was queued. -/
theorem claimedBy_of_not_queued (change : RunChange claims run run')
    (unqueued : run.status ≠ .queued) : run'.claimedBy = run.claimedBy := by
  cases change with
  | kept _ claimedBy _ | started _ _ claimedBy | ended _ _ claimedBy => exact claimedBy
  | canceled queued _ _ | claimed queued _ _ _ => exact absurd queued unqueued

/-- What is queued after a step was queued before it, by nobody claimed. -/
theorem of_queued (change : RunChange claims run run') (queued : run'.status = .queued) :
    run.status = .queued ∧ run'.claimedBy = run.claimedBy := by
  cases change with
  | kept status claimedBy _ => exact ⟨status.symm.trans queued, claimedBy⟩
  | canceled _ status _ | claimed _ status _ _ | started _ status _ =>
      rw [status] at queued; cases queued
  | ended _ status _ => rw [queued] at status; cases status

/-- A terminal row keeps its status, its result and its end. -/
theorem frozen (change : RunChange claims run run') (terminal : run.status.terminal = true) :
    run'.status = run.status ∧ run'.returnCode = run.returnCode ∧ run'.summary = run.summary ∧
      run'.finishedAt = run.finishedAt := by
  cases change with
  | kept status _ result => exact ⟨status, result⟩
  | canceled queued _ _ | claimed queued _ _ _ => rw [queued] at terminal; cases terminal
  | started preparing _ _ => rw [preparing] at terminal; cases terminal
  | ended active _ _ =>
      rw [RunStatus.not_terminal_of_active active] at terminal
      cases terminal

/-- A run that is active after a step that does not claim was active before it,
under the same worker. -/
theorem of_active (change : RunChange claims run run') (active : run'.status.active = true)
    (unclaimed : ¬ claims) : run.status.active = true ∧ run'.claimedBy = run.claimedBy := by
  cases change with
  | kept status claimedBy _ => exact ⟨status ▸ active, claimedBy⟩
  | canceled _ status _ => rw [status] at active; cases active
  | claimed _ _ _ claiming => exact absurd claiming unclaimed
  | started preparing _ claimedBy => exact ⟨by rw [preparing]; rfl, claimedBy⟩
  | ended _ status _ =>
      rw [RunStatus.not_active_of_terminal status] at active
      cases active

end RunChange

/-- The step is a claim. -/
def Action.claims : Action → Prop
  | .worker _ (.claim _) => True
  | _ => False

variable {action : Action} {run run' : Run} {store : Store} {id : Uuid} {world : World}

theorem Action.renews_of_claims (claims : action.claims) : action.renews = true := by
  unfold Action.claims at claims
  split at claims
  · rfl
  · exact claims.elim

theorem runChange_canceledBy {claims : Prop} {now sequence : Nat}
    (_cancelable : run.status.cancelable = true) :
    RunChange claims run { RunRepository.canceledBy now run with nextEventSequence := sequence } := by
  by_cases queued : run.status = .queued
  · exact .canceled queued (by simp [RunRepository.canceledBy, queued]) rfl
  · exact .kept (by simp [RunRepository.canceledBy, queued]) rfl
      ⟨rfl, rfl, by simp [RunRepository.canceledBy, queued]⟩

/-- A row that a conditional update rewrites changes as the rewriting does. -/
theorem runChange_ite {claims P : Prop} [Decidable P] (change : P → RunChange claims run run') :
    RunChange claims run (if P then run' else run) := by
  by_cases holds : P
  · rw [if_pos holds]
    exact change holds
  · rw [if_neg holds]
    exact .refl run

/-- **Every step changes every run row by a `RunChange`.** -/
theorem runChange_of_effect (effect : Effect world action store)
    (found : world.store.runs.lookup id = some run) :
    ∃ run', store.runs.lookup id = some run' ∧ RunChange action.claims run run' := by
  have named := Table.key_of_lookup found
  cases effect with
  | quiet same => exact ⟨run, by rw [same.runs, found], .refl run⟩
  | create creates =>
      refine ⟨run, ?_, .refl run⟩
      rw [creates.runs, if_neg, found]
      rintro rfl
      rw [creates.runFree] at found
      cases found
  | cancel cancels =>
      rw [cancels.runs]
      split
      · rename_i same
        obtain rfl := Option.some.inj (cancels.found.symm.trans (same ▸ found))
        exact ⟨_, rfl, runChange_canceledBy cancels.cancelable⟩
      · exact ⟨run, found, .refl run⟩
  | recover _ _ same =>
      refine ⟨_, by rw [same.runs, RunRepository.recoverStale_runs, found, Option.map_some],
        runChange_ite fun stranded => ?_⟩
      exact .ended stranded.2 rfl rfl
  | renew _ _ same | report _ _ _ _ _ same | closeShell same | dropShells _ same =>
      exact ⟨run, by rw [same.runs]; exact found, .refl run⟩
  | claim _ claims =>
      rw [claims.runs]
      split
      · rename_i same
        obtain rfl := Option.some.inj (claims.found.symm.trans (same ▸ found))
        exact ⟨_, rfl, .claimed claims.queued rfl rfl trivial⟩
      · exact ⟨run, found, .refl run⟩
  | start _ _ same =>
      refine ⟨_, by rw [same.runs, RunRepository.markRunning_runs, found, Option.map_some],
        runChange_ite fun preparing => ?_⟩
      exact .started preparing.2 rfl rfl
  | append _ _ _ appends =>
      rw [appends.runs]
      split
      · rename_i same
        obtain rfl := Option.some.inj (appends.found.symm.trans (same ▸ found))
        exact ⟨_, rfl, .kept rfl rfl ⟨rfl, rfl, rfl⟩⟩
      · exact ⟨run, found, .refl run⟩
  | finish _ _ ends _ finishes =>
      rw [finishes.runs]
      split
      · rename_i same
        obtain rfl := Option.some.inj (finishes.found.symm.trans (same ▸ found))
        exact ⟨_, rfl, .ended finishes.owned.2 ends rfl⟩
      · exact ⟨run, found, .refl run⟩
  | openShell opens => exact ⟨run, by rw [opens.runs, found], .refl run⟩
  | activateShell activates => exact ⟨run, by rw [activates.runs, found], .refl run⟩
  | refreshShell => exact ⟨run, found, .refl run⟩

/-- A row that a step adds is queued and has no worker. -/
theorem newRun_of_effect (effect : Effect world action store)
    (found : store.runs.lookup id = some run') (absent : world.store.runs.lookup id = none) :
    run'.status = .queued ∧ run'.claimedBy = none := by
  cases effect with
  | create creates =>
      rw [creates.runs] at found
      split at found
      · obtain rfl := Option.some.inj found
        exact ⟨rfl, rfl⟩
      · exact (Table.not_free absent found).elim
  | cancel cancels =>
      rw [cancels.runs] at found
      split at found
      · rename_i same
        exact (Table.not_free absent (same ▸ cancels.found)).elim
      · exact (Table.not_free absent found).elim
  | claim _ claims =>
      rw [claims.runs] at found
      split at found
      · rename_i same
        exact (Table.not_free absent (same ▸ claims.found)).elim
      · exact (Table.not_free absent found).elim
  | finish _ _ _ _ finishes =>
      rw [finishes.runs] at found
      split at found
      · rename_i same
        exact (Table.not_free absent (same ▸ finishes.found)).elim
      · exact (Table.not_free absent found).elim
  | recover _ _ same =>
      rw [same.runs, RunRepository.recoverStale_runs, absent] at found
      cases found
  | start _ _ same =>
      rw [same.runs, RunRepository.markRunning_runs, absent] at found
      cases found
  | append _ _ _ appends =>
      rw [appends.runs] at found
      split at found
      · rename_i same
        exact (Table.not_free absent (same ▸ appends.found)).elim
      · exact (Table.not_free absent found).elim
  | quiet same | renew _ _ same | report _ _ _ _ _ same | closeShell same | dropShells _ same =>
      exact (Table.not_free absent (same.runs ▸ found)).elim
  | openShell opens => exact (Table.not_free absent (opens.runs ▸ found)).elim
  | activateShell activates => exact (Table.not_free absent (activates.runs ▸ found)).elim
  | refreshShell => exact (Table.not_free absent found).elim

/-- A run that is active after a step that is no claim was active before it, under
the same worker. -/
theorem active_of_effect (effect : Effect world action store) (unclaimed : ¬ action.claims)
    (found' : store.runs.lookup id = some run') (active : run'.status.active = true) :
    ∃ run, world.store.runs.lookup id = some run ∧ run.status.active = true ∧
      run'.claimedBy = run.claimedBy := by
  cases found : world.store.runs.lookup id with
  | none =>
      have queued := (newRun_of_effect effect found' found).1
      rw [queued] at active
      cases active
  | some run =>
      obtain ⟨row, present, change⟩ := runChange_of_effect effect found
      obtain rfl := Option.some.inj (present.symm.trans found')
      obtain ⟨wasActive, same⟩ := change.of_active active unclaimed
      exact ⟨run, rfl, wasActive, same⟩

/-! ## The invariant of the run tables -/

/-- What holds of the run rows and their target rows in every committed state. -/
structure RowsOk (store : Store) : Prop where
  unclaimed : ∀ id run, store.runs.lookup id = some run → run.status = .queued →
    run.claimedBy = none
  ofRun : ∀ id target, store.targets.lookup id = some target →
    ∃ run, store.runs.lookup target.runId = some run
  pending : ∀ id target run, store.targets.lookup id = some target →
    store.runs.lookup target.runId = some run → run.status = .queued → target.status = .pending
  closed : ∀ id target run, store.targets.lookup id = some target →
    store.runs.lookup target.runId = some run → run.status.terminal = true →
    target.status.open? = false

/-- A process executes only a run that was claimed under its worker id. -/
def ClaimedByWorkers (world : World) : Prop :=
  ∀ id worker runId, world.workers.lookup id = some worker → worker.stage.run? = some runId →
    ∃ run, world.store.runs.lookup runId = some run ∧ run.claimedBy = some worker.workerId

/-- A run that a process executes has left the queue. -/
theorem ClaimedByWorkers.unqueued (claimed : ClaimedByWorkers world)
    (rows : RowsOk world.store) {runId : Uuid} {worker : WorkerProcess}
    (found : world.workers.lookup id = some worker) (executing : worker.stage.run? = some runId)
    (present : world.store.runs.lookup runId = some run) : run.status ≠ .queued := by
  intro queued
  obtain ⟨run', present', byWorker⟩ := claimed id worker runId found executing
  obtain rfl := Option.some.inj (present.symm.trans present')
  rw [rows.unclaimed runId run present queued] at byWorker
  cases byWorker

/-! ## How one target row changes -/

/-- How a step changes a target row of a run that goes from `run` to `run'`;
`reports` says that the step writes the result of this very target. -/
inductive TargetChange (run run' : Run) (reports : Prop) : RunTarget → RunTarget → Prop where
  | kept {target : RunTarget}
      (ends : run'.status.terminal = true →
        run.status.terminal = true ∨ target.status.open? = false) :
      TargetChange run run' reports target target
  | started {target target' : RunTarget}
      (ids : target'.runId = target.runId ∧ target'.hostId = target.hostId)
      (pending : target.status = .pending) (unqueued : run'.status ≠ .queued)
      (ends : run'.status.terminal = true → run.status.terminal = true) :
      TargetChange run run' reports target target'
  | closed {target target' : RunTarget}
      (ids : target'.runId = target.runId ∧ target'.hostId = target.hostId)
      (opened : target.status.open? = true) (unqueued : run'.status ≠ .queued)
      (status : target'.status.open? = false) : TargetChange run run' reports target target'
  | reported {target target' : RunTarget}
      (ids : target'.runId = target.runId ∧ target'.hostId = target.hostId) (reported : reports)
      (unqueued : run'.status ≠ .queued) (status : target'.status.open? = false) :
      TargetChange run run' reports target target'

namespace TargetChange

variable {run run' : Run} {reports : Prop} {target target' : RunTarget}

theorem ids (change : TargetChange run run' reports target target') :
    target'.runId = target.runId ∧ target'.hostId = target.hostId := by
  cases change with
  | kept _ => exact ⟨rfl, rfl⟩
  | started ids _ _ _ | closed ids _ _ _ | reported ids _ _ _ => exact ids

/-- A row that a step leaves alone while its run does not end. -/
theorem of_running (same : run'.status.terminal = true → run.status.terminal = true) :
    TargetChange run run' reports target target :=
  .kept fun ends => .inl (same ends)

end TargetChange

/-- The target whose result an action writes. -/
def Action.reports? : Action → Option Uuid
  | .worker _ (.finishTarget runTargetId _ _) => some runTargetId
  | _ => none

/-- **Every step changes every target row by a `TargetChange`.** -/
theorem targetChange_of_effect {world : World} {action : Action} {store : Store}
    (rows : RowsOk world.store) (claimed : ClaimedByWorkers world)
    (effect : Effect world action store) {id : Uuid} {target : RunTarget} {run run' : Run}
    (found : world.store.targets.lookup id = some target)
    (before : world.store.runs.lookup target.runId = some run)
    (after : store.runs.lookup target.runId = some run') :
    ∃ target', store.targets.lookup id = some target' ∧
      TargetChange run run' (action.reports? = some id) target target' := by
  have ofRun := Table.key_of_lookup before
  -- where the run rows are the same, the run goes nowhere
  have still : store.runs = world.store.runs →
      TargetChange run run' (action.reports? = some id) target target := by
    intro same
    rw [same, before] at after
    obtain rfl := Option.some.inj after
    exact .of_running fun ends => ends
  cases effect with
  | quiet same => exact ⟨target, by rw [same.targets, found], still same.runs⟩
  | create creates =>
      refine ⟨target, (Table.lookup_insertAll? creates.targets).mpr (.inr found), ?_⟩
      rw [creates.runs, if_neg, before] at after
      · obtain rfl := Option.some.inj after
        exact .of_running fun ends => ends
      · intro same
        exact Table.not_free creates.runFree (same ▸ before)
  | @cancel runId _ _ current _ cancels =>
      rw [cancels.targets]
      by_cases same : runId = target.runId
      · subst same
        obtain rfl := Option.some.inj (cancels.found.symm.trans before)
        rw [cancels.runs, if_pos rfl] at after
        obtain rfl := Option.some.inj after
        by_cases queued : current.status = .queued
        · have pending := rows.pending id target current found before queued
          rw [if_pos queued, RunRepository.cancelTargets_targets, found, Option.map_some,
            if_pos ⟨rfl, pending⟩]
          refine ⟨_, rfl, .closed ⟨rfl, rfl⟩ ?_ ?_ rfl⟩
          · rw [pending]
            rfl
          · simp [RunRepository.canceledBy, queued]
        · refine ⟨target, by rw [if_neg queued, found], .of_running ?_⟩
          simp [RunRepository.canceledBy, queued]
      · rw [cancels.runs, if_neg same, before] at after
        obtain rfl := Option.some.inj after
        refine ⟨target, ?_, .of_running fun ends => ends⟩
        split
        · rw [RunRepository.cancelTargets_targets, found, Option.map_some, if_neg]
          exact fun both => same both.1.symm
        · exact found
  | recover _ _ same =>
      rw [same.targets, RunRepository.recoverStale_targets, found, Option.map_some]
      rw [same.runs, RunRepository.recoverStale_runs, before, Option.map_some] at after
      obtain rfl := Option.some.inj after
      refine ⟨_, rfl, ?_⟩
      by_cases stranded : RunRepository.Stranded world.store world.clock run
      · have strandedId : RunRepository.StrandedId world.store world.clock target.runId :=
          ⟨run, before, stranded⟩
        rw [if_pos stranded]
        by_cases opened : target.status.open? = true
        · rw [if_pos ⟨strandedId, opened⟩]
          exact .closed ⟨rfl, rfl⟩ opened (by simp [RunRepository.interruptedBy]) rfl
        · rw [if_neg fun both => opened both.2]
          exact .kept fun _ => .inr (by simpa using opened)
      · have apart : ¬ RunRepository.StrandedId world.store world.clock target.runId := by
          rintro ⟨other, present, isStranded⟩
          obtain rfl := Option.some.inj (before.symm.trans present)
          exact stranded isStranded
        rw [if_neg stranded, if_neg fun both => apart both.1]
        exact .of_running fun ends => ends
  | renew _ _ same | closeShell same | dropShells _ same =>
      exact ⟨target, by rw [same.targets]; exact found, still same.runs⟩
  | claim _ claims =>
      refine ⟨target, by rw [claims.targets, found], .of_running ?_⟩
      rw [claims.runs] at after
      split at after
      · obtain rfl := Option.some.inj after
        intro ends
        cases ends
      · rw [before] at after
        obtain rfl := Option.some.inj after
        exact fun ends => ends
  | @start worker runId _ present executing same =>
      rw [same.targets, RunRepository.markRunning_targets, found, Option.map_some]
      rw [same.runs, RunRepository.markRunning_runs, before, Option.map_some] at after
      obtain rfl := Option.some.inj after
      refine ⟨_, rfl, ?_⟩
      by_cases ownPending : target.runId = runId ∧ target.status = .pending
      · have unqueued : run.status ≠ .queued :=
          claimed.unqueued rows present executing (ownPending.1 ▸ before)
        rw [if_pos ownPending]
        refine .started ⟨rfl, rfl⟩ ownPending.2 ?_ ?_
        · split
          · simp
          · exact unqueued
        · split
          · intro ends
            cases ends
          · exact fun ends => ends
      · rw [if_neg ownPending]
        refine .of_running ?_
        split
        · intro ends
          cases ends
        · exact fun ends => ends
  | append _ _ _ appends =>
      refine ⟨target, by rw [appends.targets, found], .of_running ?_⟩
      rw [appends.runs] at after
      split at after
      · rename_i same
        obtain rfl := Option.some.inj (appends.found.symm.trans (same ▸ before))
        obtain rfl := Option.some.inj after
        exact fun ends => ends
      · rw [before] at after
        obtain rfl := Option.some.inj after
        exact fun ends => ends
  | @report worker runId hostId reportedTarget result _ present executing stored own closed same =>
      rw [same.targets, RunRepository.finishTarget_targets]
      by_cases self : reportedTarget.runTargetId = id
      · rw [if_pos self, found]
        obtain rfl := Option.some.inj ((self ▸ stored).symm.trans found)
        have unqueued : run.status ≠ .queued :=
          claimed.unqueued rows present executing (own ▸ before)
        have sameRun : run' = run :=
          Option.some.inj (after.symm.trans (by rw [same.runs]; exact before))
        exact ⟨_, rfl, .reported ⟨rfl, rfl⟩ (congrArg some self) (sameRun ▸ unqueued) closed⟩
      · rw [if_neg self]
        exact ⟨target, found, still same.runs⟩
  | @finish worker action runId eventId outcome old _ _ _ ends _ finishes =>
      rw [finishes.targets, RunRepository.finish_targets, found, Option.map_some]
      rw [finishes.runs] at after
      refine ⟨_, rfl, ?_⟩
      by_cases own : runId = target.runId
      · rw [if_pos own] at after
        obtain rfl := Option.some.inj after
        by_cases opened : target.status.open? = true
        · rw [if_pos ⟨own.symm, opened⟩]
          refine .closed ⟨rfl, rfl⟩ opened ?_ (RunRepository.fallbackTargetStatus_closed _)
          intro queued
          rw [show outcome.status = .queued from queued] at ends
          cases ends
        · rw [if_neg fun both => opened both.2]
          exact .kept fun _ => .inr (by simpa using opened)
      · rw [if_neg own, before] at after
        obtain rfl := Option.some.inj after
        rw [if_neg fun both => own both.1.symm]
        exact .of_running fun ends => ends
  | openShell opens => exact ⟨target, by rw [opens.targets, found], still opens.runs⟩
  | activateShell activates =>
      exact ⟨target, by rw [activates.targets, found], still activates.runs⟩
  | refreshShell => exact ⟨target, found, still rfl⟩

/-- A target row that a step adds is pending, and its queued run comes with it. -/
theorem newTarget_of_effect {world : World} {action : Action} {store : Store}
    (effect : Effect world action store) {id : Uuid} {target' : RunTarget}
    (found : store.targets.lookup id = some target')
    (absent : world.store.targets.lookup id = none) :
    target'.status = .pending ∧ ∃ run', store.runs.lookup target'.runId = some run' ∧
      run'.status = .queued := by
  -- only a creation adds rows; every other step rewrites the ones there are
  cases effect with
  | @create draft _ _ creates =>
      rcases (Table.lookup_insertAll? creates.targets).mp found with ⟨added, _⟩ | old
      · obtain ⟨host, _, rfl⟩ := List.mem_map.mp added
        exact ⟨rfl, _, (creates.runs _).trans (if_pos rfl), rfl⟩
      · exact (Table.not_free absent old).elim
  | cancel cancels =>
      rw [cancels.targets] at found
      split at found
      · rw [RunRepository.cancelTargets_targets, absent] at found
        cases found
      · exact (Table.not_free absent found).elim
  | recover _ _ same =>
      rw [same.targets, RunRepository.recoverStale_targets, absent] at found
      cases found
  | start _ _ same =>
      rw [same.targets, RunRepository.markRunning_targets, absent] at found
      cases found
  | report _ _ _ _ _ same =>
      rw [same.targets, RunRepository.finishTarget_targets, absent] at found
      split at found
      · cases found
      · cases found
  | finish _ _ _ _ finishes =>
      rw [finishes.targets, RunRepository.finish_targets, absent] at found
      cases found
  | quiet same | renew _ _ same | closeShell same | dropShells _ same =>
      exact (Table.not_free absent (same.targets ▸ found)).elim
  | claim _ claims => exact (Table.not_free absent (claims.targets ▸ found)).elim
  | append _ _ _ appends => exact (Table.not_free absent (appends.targets ▸ found)).elim
  | openShell opens => exact (Table.not_free absent (opens.targets ▸ found)).elim
  | activateShell activates => exact (Table.not_free absent (activates.targets ▸ found)).elim
  | refreshShell => exact (Table.not_free absent found).elim

/-! ## The invariant is inductive -/

/-- The rows are in order, and processes execute only what they claimed. -/
structure LifecycleInv (world : World) : Prop where
  rows : RowsOk world.store
  claimed : ClaimedByWorkers world

section Preservation

variable {world world' : World} {action : Action} (inv : LifecycleInv world)
  (step : world.step action = some world')

include inv step

/-- A target row after a step, with the row it was before and with its run; or
a row that the step has added. -/
theorem target_of_step {id : Uuid} {target' : RunTarget}
    (found : world'.store.targets.lookup id = some target') :
    (∃ target run run', world.store.targets.lookup id = some target ∧
      world.store.runs.lookup target.runId = some run ∧
      world'.store.runs.lookup target'.runId = some run' ∧ RunChange action.claims run run' ∧
      TargetChange run run' (action.reports? = some id) target target') ∨
    target'.status = .pending ∧ ∃ run', world'.store.runs.lookup target'.runId = some run' ∧
      run'.status = .queued := by
  have effect := effect_of_step step
  cases before : world.store.targets.lookup id with
  | none => exact .inr (newTarget_of_effect effect found before)
  | some target =>
      obtain ⟨run, present⟩ := inv.rows.ofRun id target before
      obtain ⟨run', present', change⟩ := runChange_of_effect effect present
      obtain ⟨row, after, targetChange⟩ :=
        targetChange_of_effect inv.rows inv.claimed effect before present present'
      obtain rfl := Option.some.inj (after.symm.trans found)
      refine .inl ⟨target, run, run', rfl, present, ?_, change, targetChange⟩
      rw [targetChange.ids.1]
      exact present'

theorem rowsOk_of_step : RowsOk world'.store where
  unclaimed id run' found queued := by
    cases before : world.store.runs.lookup id with
    | none => exact (newRun_of_effect (effect_of_step step) found before).2
    | some run =>
        obtain ⟨row, after, change⟩ := runChange_of_effect (effect_of_step step) before
        obtain rfl := Option.some.inj (after.symm.trans found)
        obtain ⟨wasQueued, same⟩ := change.of_queued queued
        rw [same]
        exact inv.rows.unclaimed id run before wasQueued
  ofRun id target' found := by
    rcases target_of_step inv step found with
      ⟨_, _, run', _, _, present', _, _⟩ | ⟨_, run', present', _⟩
    · exact ⟨run', present'⟩
    · exact ⟨run', present'⟩
  pending id target' run' found present queued := by
    rcases target_of_step inv step found with
      ⟨target, run, row, before, ofRun, present', change, targetChange⟩ | ⟨pending, _⟩
    · obtain rfl := Option.some.inj (present'.symm.trans present)
      have wasPending :=
        inv.rows.pending id target run before ofRun (change.of_queued queued).1
      cases targetChange with
      | kept _ => exact wasPending
      | started _ _ unqueued _ | closed _ _ unqueued _ | reported _ _ unqueued _ =>
          exact absurd queued unqueued
    · exact pending
  closed id target' run' found present terminal := by
    rcases target_of_step inv step found with
      ⟨target, run, row, before, ofRun, present', change, targetChange⟩ |
        ⟨_, row, present', queued⟩
    · obtain rfl := Option.some.inj (present'.symm.trans present)
      have wasClosed : run.status.terminal = true → target.status.open? = false :=
        inv.rows.closed id target run before ofRun
      cases targetChange with
      | kept ends => exact (ends terminal).elim wasClosed fun closed => closed
      | started _ pending _ ends =>
          have impossible := wasClosed (ends terminal)
          rw [pending] at impossible
          cases impossible
      | closed _ _ _ status | reported _ _ _ status => exact status
    · obtain rfl := Option.some.inj (present'.symm.trans present)
      rw [queued] at terminal
      cases terminal

theorem claimedByWorkers_of_step : ClaimedByWorkers world' := by
  intro id worker' runId found executing
  rcases run?_of_step step found executing with ⟨worker, before, same, executed⟩ | fresh
  · obtain ⟨run, present, byWorker⟩ := inv.claimed id worker runId before executed
    have unqueued := inv.claimed.unqueued inv.rows before executed present
    obtain ⟨run', present', change⟩ := runChange_of_effect (effect_of_step step) present
    refine ⟨run', present', ?_⟩
    rw [change.claimedBy_of_not_queued unqueued, byWorker, same]
  · exact fresh

end Preservation

/-- **The life-cycle invariant holds in every reachable state.** -/
theorem lifecycleInv_inductive : deployment.Inductive LifecycleInv where
  initial world start := by
    obtain rfl := start
    have noRun : ∀ id run, World.start.store.runs.lookup id ≠ some run :=
      fun _ _ impossible => by cases impossible
    have noTarget : ∀ id target, World.start.store.targets.lookup id ≠ some target :=
      fun _ _ impossible => by cases impossible
    exact
      { rows :=
          { unclaimed := fun id run found => absurd found (noRun id run)
            ofRun := fun id target found => absurd found (noTarget id target)
            pending := fun id target _ found => absurd found (noTarget id target)
            closed := fun id target _ found => absurd found (noTarget id target) }
        claimed := fun _ _ _ found => by cases found }
  preserved _ _ _ inv step :=
    { rows := rowsOk_of_step inv step
      claimed := claimedByWorkers_of_step inv step }

/-! ## The laws of the life cycle -/

/-- The run with this id was in the queue before a step and is prepared after it. -/
def Claimed (id : Uuid) (world world' : World) : Prop :=
  (∃ run, world.store.runs.lookup id = some run ∧ run.status = .queued) ∧
    ∃ run', world'.store.runs.lookup id = some run' ∧ run'.status = .preparing

/-- A run that is there and not in the queue. -/
def Unqueued (id : Uuid) (world : World) : Prop :=
  ∃ run, world.store.runs.lookup id = some run ∧ run.status ≠ .queued

/-- No step leads back to the queue. -/
theorem unqueued_of_leads {id : Uuid} {world world' : World} (unqueued : Unqueued id world)
    (run : deployment.Leads world world') : Unqueued id world' := by
  refine run.stays ?_ unqueued
  rintro before action after ⟨row, found, out⟩ step
  obtain ⟨row', found', change⟩ := runChange_of_effect (effect_of_step step) found
  exact ⟨row', found', fun queued => out (change.of_queued queued).1⟩

/-- The run has ended. -/
abbrev Ended (id : Uuid) (world : World) : Prop :=
  ∃ run ∈ world.store.runs.lookup id, run.status.terminal = true

/-- No step leads back from an end. -/
theorem ended_of_leads {id : Uuid} {world world' : World} (ended : Ended id world)
    (run : deployment.Leads world world') : Ended id world' := by
  refine run.stays ?_ ended
  rintro before action after ⟨row, found, terminal⟩ step
  obtain ⟨row', found', change⟩ := runChange_of_effect (effect_of_step step) found
  exact ⟨row', found', by rw [(change.frozen terminal).1, terminal]⟩

/-- **The life cycle of runs and targets.**  In every reachable state: a step
leaves every run in its place or moves it along the life cycle, and adds runs
only to the queue; a run that has left the queue never comes back, so that it
is claimed at most once; and a terminal run has no open target. -/
theorem lifecycle {world : World} (reached : deployment.Reachable world) :
    (∀ action world', deployment.step world action = some world' → ∀ id,
      (∀ run, world.store.runs.lookup id = some run →
        ∃ run', world'.store.runs.lookup id = some run' ∧
          (run'.status = run.status ∨ RunStatus.Moves run.status run'.status)) ∧
      (world.store.runs.lookup id = none → ∀ run', world'.store.runs.lookup id = some run' →
        run'.status = .queued)) ∧
    (∀ id world', Unqueued id world → deployment.Leads world world' → Unqueued id world') ∧
    (∀ action world₁ world₂ action' world₃ id, deployment.step world action = some world₁ →
      Claimed id world world₁ → deployment.Leads world₁ world₂ →
      deployment.step world₂ action' = some world₃ → ¬ Claimed id world₂ world₃) ∧
    ∀ id target run, world.store.targets.lookup id = some target →
      world.store.runs.lookup target.runId = some run → run.status.terminal = true →
      target.status ≠ .pending ∧ target.status ≠ .running := by
  refine ⟨?_, ?_, ?_, ?_⟩
  · intro action world' step id
    have effect := effect_of_step step
    refine ⟨?_, ?_⟩
    · intro run found
      obtain ⟨run', found', change⟩ := runChange_of_effect effect found
      exact ⟨run', found', change.status⟩
    · intro absent run' found'
      exact (newRun_of_effect effect found' absent).1
  · intro id world' unqueued run
    exact unqueued_of_leads unqueued run
  · rintro action world₁ world₂ action' world₃ id - ⟨-, run, found, preparing⟩ later - ⟨again, -⟩
    have left : Unqueued id world₁ := ⟨run, found, by rw [preparing]; decide⟩
    obtain ⟨row, present, out⟩ := unqueued_of_leads left later
    obtain ⟨row', present', queued⟩ := again
    obtain rfl := Option.some.inj (present.symm.trans present')
    exact out queued
  · intro id target run found present terminal
    have closed :=
      (lifecycleInv_inductive.of_reachable reached).rows.closed id target run found present terminal
    refine ⟨?_, ?_⟩
    · intro pending
      rw [pending] at closed
      cases closed
    · intro running
      rw [running] at closed
      cases closed

/-! ## A first run -/

/-- A ping of one host. -/
def pingDraft (runId eventId : Uuid) : RunService.Draft where
  runId := runId
  kind := .ping
  targetSpec := []
  resolvedTargets := []
  operationSpec := []
  inventorySnapshot := []
  credentialVersions := []
  timeoutSeconds := 60
  forks := 1
  requestedBy := 1
  idempotencyKey := "ping"
  fingerprint := "fingerprint"
  now := 0
  targets := [{ runTargetId := runId, hostId := 1, hostName := "web", hostAddress := "10.0.0.1" }]
  eventId := eventId

/-- A worker process starts, recovers and claims. -/
def claimOnce (processId : Uuid) (workerId : String) : List Action :=
  [.spawn processId workerId .default, .worker processId .recoverStale,
    .worker processId .beginIteration, .worker processId .heartbeat, .worker processId (.claim [])]

/-- A ping is created and claimed. -/
def firstClaim : List Action := .createRun (pingDraft 1 1) [] :: claimOnce 1 "a"

theorem lifecycle_firstClaim : ∃ world, deployment.exec .start firstClaim = some world ∧
    (world.store.runs.lookup 1).map Run.status = some .preparing ∧
    ∀ world', deployment.Leads world world' → Unqueued 1 world' := by
  have ran : (deployment.exec .start firstClaim).bind
      (fun world => (world.store.runs.lookup 1).map Run.status) = some .preparing := by decide
  obtain ⟨world, done, status⟩ := Option.bind_eq_some_iff.mp ran
  refine ⟨world, done, status, ?_⟩
  intro world' later
  obtain ⟨run, found, preparing⟩ := Option.map_eq_some_iff.mp status
  have unqueued : Unqueued 1 world := ⟨run, found, by rw [preparing]; decide⟩
  exact (lifecycle (reachable_of_exec done)).2.1 1 world' unqueued later

end OpsComposer.Cluster
