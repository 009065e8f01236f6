import OpsComposer.Cluster.Lifecycle

/-!
# Who ends a run

`WorkerCoordinator.finish` closes the open targets of the run before it asks whether the
worker owns the run, and it releases the locks of the run whatever came of that question:
only the answer `none` of the repository, which makes the coordinator raise, takes these
writes back.

* `eventsNumbered_inductive` — the counter of a run is above the numbers of its events, so
  that the `run_finished` event can always be appended;
* `EndsTogether` — what the end of a run changes, all of it in one transaction;
* `finish_all_or_nothing` — the owner of a live run ends it so, and nobody else changes
  anything.
-/

set_option autoImplicit false

namespace OpsComposer.Cluster

open Domain Foundations Repositories Services

/-! ## The numbers of events -/

/-- Every event belongs to a run whose counter is above its number. -/
def EventsNumbered (store : Store) : Prop :=
  ∀ id event, store.events.lookup id = some event →
    ∃ run, store.runs.lookup event.runId = some run ∧ event.sequence < run.nextEventSequence

/-- No step turns the counter of a run back. -/
theorem counter_of_effect {world : World} {action : Action} {store : Store}
    (effect : Effect world action store) {id : Uuid} {run : Run}
    (found : world.store.runs.lookup id = some run) :
    ∃ run', store.runs.lookup id = some run' ∧
      run.nextEventSequence ≤ run'.nextEventSequence := by
  have same : store.runs = world.store.runs →
      ∃ run', store.runs.lookup id = some run' ∧
        run.nextEventSequence ≤ run'.nextEventSequence := by
    intro same
    exact ⟨run, by rw [same, found], le_rfl⟩
  cases effect with
  | quiet alike | renew _ _ alike | report _ _ _ _ _ alike | closeShell alike
  | dropShells _ alike => exact same alike.runs
  | create creates =>
      refine ⟨run, ?_, le_rfl⟩
      rw [creates.runs, if_neg, found]
      rintro rfl
      exact Table.not_free creates.runFree found
  | cancel cancels =>
      rw [cancels.runs]
      split
      · rename_i isThis
        obtain rfl := Option.some.inj (cancels.found.symm.trans (isThis ▸ found))
        exact ⟨_, rfl, Nat.le_succ _⟩
      · exact ⟨run, found, le_rfl⟩
  | recover _ _ alike =>
      refine ⟨_, by rw [alike.runs, RunRepository.recoverStale_runs, found, Option.map_some], ?_⟩
      split <;> exact le_rfl
  | claim _ claims =>
      rw [claims.runs]
      split
      · rename_i isThis
        obtain rfl := Option.some.inj (claims.found.symm.trans (isThis ▸ found))
        exact ⟨_, rfl, le_rfl⟩
      · exact ⟨run, found, le_rfl⟩
  | start _ _ alike =>
      refine ⟨_, by rw [alike.runs, RunRepository.markRunning_runs, found, Option.map_some], ?_⟩
      split <;> exact le_rfl
  | append _ _ _ appends =>
      rw [appends.runs]
      split
      · rename_i isThis
        obtain rfl := Option.some.inj (appends.found.symm.trans (isThis ▸ found))
        exact ⟨_, rfl, Nat.le_succ _⟩
      · exact ⟨run, found, le_rfl⟩
  | finish _ _ _ _ finishes =>
      rw [finishes.runs]
      split
      · rename_i isThis
        obtain rfl := Option.some.inj (finishes.found.symm.trans (isThis ▸ found))
        exact ⟨_, rfl, Nat.le_succ _⟩
      · exact ⟨run, found, le_rfl⟩
  | openShell opens => exact same opens.runs
  | activateShell activates => exact same activates.runs
  | refreshShell => exact same rfl

/-- **An event that a step appends takes the number that the counter has shown.** -/
theorem eventsNumbered_of_effect {world : World} {action : Action} {store : Store}
    (numbered : EventsNumbered world.store) (effect : Effect world action store) :
    EventsNumbered store := by
  intro id event found
  have old : world.store.events.lookup id = some event →
      ∃ run, store.runs.lookup event.runId = some run ∧
        event.sequence < run.nextEventSequence := by
    intro isOld
    obtain ⟨run, present, below⟩ := numbered id event isOld
    obtain ⟨run', present', grown⟩ := counter_of_effect effect present
    exact ⟨run', present', below.trans_le grown⟩
  have added : ∀ row : RunEvent, (∃ run, store.runs.lookup row.runId = some run ∧
        row.sequence < run.nextEventSequence) →
      (world.store.events.put row).lookup id = some event →
        ∃ run, store.runs.lookup event.runId = some run ∧
          event.sequence < run.nextEventSequence := by
    intro row isNumbered isFound
    rw [Table.lookup_put] at isFound
    split at isFound
    · exact Option.some.inj isFound ▸ isNumbered
    · exact old isFound
  cases effect with
  | quiet alike | recover _ _ alike | renew _ _ alike | start _ _ alike | report _ _ _ _ _ alike
  | closeShell alike | dropShells _ alike => exact old (alike.events ▸ found)
  | @create draft _ _ creates =>
      refine added _ ?_ (creates.events ▸ found)
      have numberOne : draft.queuedEvent.sequence < 2 := Nat.lt_succ_self 1
      exact ⟨_, by rw [creates.runs]; exact if_pos rfl, numberOne⟩
  | cancel cancels =>
      refine added _ ?_ (cancels.events ▸ found)
      exact ⟨_, by rw [cancels.runs]; exact if_pos rfl, Nat.lt_succ_self _⟩
  | claim _ claims => exact old (claims.events ▸ found)
  | append _ _ _ appends =>
      refine added _ ?_ (appends.events ▸ found)
      exact ⟨_, by rw [appends.runs]; exact if_pos rfl, Nat.lt_succ_self _⟩
  | finish _ _ _ _ finishes =>
      refine added _ ?_ (finishes.events ▸ found)
      exact ⟨_, by rw [finishes.runs]; exact if_pos rfl, Nat.lt_succ_self _⟩
  | openShell opens => exact old (opens.events ▸ found)
  | activateShell activates => exact old (activates.events ▸ found)
  | refreshShell => exact old found

theorem eventsNumbered_inductive :
    deployment.Inductive fun world => EventsNumbered world.store where
  initial := by
    rintro _ rfl id event found
    cases found
  preserved world action world' numbered step :=
    eventsNumbered_of_effect numbered (effect_of_step step)

/-! ## The end of a run -/

/-- The store after a unit of work: the one that it commits, or the one before it when it
raises. -/
def committed {α : Type} (store : Store) : Option (α × Store) → Store
  | none => store
  | some (_, store') => store'

/-- The worker has claimed the run, which is being prepared or is running. -/
def Owns (store : Store) (workerId : String) (runId : Uuid) : Prop :=
  ∃ run, store.runs.lookup runId = some run ∧ RunRepository.OwnedBy workerId run

/-- What the end of a run changes, and that it changes nothing else. -/
structure EndsTogether (workerId : String) (store : Store) (runId eventId : Uuid)
    (outcome : RunRepository.Outcome) (now : Nat) (old : Run) (store' : Store) : Prop where
  run : store'.runs.lookup runId = some
    { RunRepository.finishedWith outcome now old with
      nextEventSequence := old.nextEventSequence + 1 }
  otherRuns : ∀ id, id ≠ runId → store'.runs.lookup id = store.runs.lookup id
  targets : ∀ id, store'.targets.lookup id = (store.targets.lookup id).map fun target =>
    if target.runId = runId ∧ target.status.open? then
      { target with
        status := RunRepository.fallbackTargetStatus outcome.status
        finishedAt := some now }
    else target
  closed : ∀ id target, store'.targets.lookup id = some target → target.runId = runId →
    target.status.open? = false
  locks : ∀ host lock, store'.locks.lookup host = some lock ↔
    store.locks.lookup host = some lock ∧ lock.runId? ≠ some runId
  leases : ∀ id, store'.leases.lookup id = (store.leases.lookup id).map fun lease =>
    if lease.workerId = workerId ∧ lease.runId = some runId then { lease with runId := none }
    else lease
  events : store'.events = store.events.put
    { WorkerCoordinator.finishedEvent runId eventId outcome now with
      sequence := old.nextEventSequence }
  audit : store'.audit = store.audit ++
    [{ action := .runFinished outcome.status, workerId := some workerId, runId := some runId }]
  secretInputs : store'.secretInputs = store.secretInputs
  shells : store'.shells = store.shells

section Finish

variable {workerId : String} {store : Store} {runId eventId : Uuid}
  {outcome : RunRepository.Outcome} {now : Nat}

/-- A worker that does not own the run raises. -/
theorem finish_of_not_owns (foreign : ¬ Owns store workerId runId) :
    WorkerCoordinator.finish workerId store runId eventId outcome now = none := by
  cases done : WorkerCoordinator.finish workerId store runId eventId outcome now with
  | none => rfl
  | some answer =>
      obtain ⟨run, store'⟩ := answer
      obtain ⟨old, finishes⟩ := WorkerCoordinator.finish_spec done
      exact absurd ⟨old, finishes.found, finishes.owned⟩ foreign

/-- An event can be appended when its id and its number are free. -/
theorem appendEvent_of_free {event : RunEvent} {run : Run}
    (found : store.runs.lookup event.runId = some run)
    (eventFree : store.events.lookup event.runEventId = none)
    (numberFree : ∀ id other, store.events.lookup id = some other →
      ¬ (other.runId = event.runId ∧ other.sequence = run.nextEventSequence)) :
    (RunRepository.appendEvent store event).isSome := by
  have free : ¬ ∃ other ∈ store.events.rows,
      other.runId = event.runId ∧ other.sequence = run.nextEventSequence := by
    rintro ⟨other, member, same⟩
    exact numberFree _ other (Table.lookup_of_mem member) same
  have inserted : store.events.insert? { event with sequence := run.nextEventSequence } = some _ :=
    Table.insert?_eq_some.mpr ⟨eventFree, rfl⟩
  unfold RunRepository.appendEvent
  rw [found]
  simp only [if_neg free, inserted, Option.map_some, Option.isSome_some]

/-- The owner of a live run ends it. -/
theorem finish_of_owns (numbered : EventsNumbered store)
    (eventFree : store.events.lookup eventId = none) {old : Run}
    (found : store.runs.lookup runId = some old) (owned : RunRepository.OwnedBy workerId old) :
    (WorkerCoordinator.finish workerId store runId eventId outcome now).isSome := by
  have named : old.runId = runId := Table.key_of_lookup found
  have answered : (RunRepository.finish store runId workerId outcome now).1 =
      some (RunRepository.finishedWith outcome now old) := by
    simp [RunRepository.finish, found, owned.1, owned.2]
  have present : (RunRepository.finish store runId workerId outcome now).2.runs.lookup runId =
      some (RunRepository.finishedWith outcome now old) := by
    simp [RunRepository.finish, Table.lookup_update, found, named, owned.1, owned.2]
  have appended : (RunRepository.appendEvent
      (RunRepository.finish store runId workerId outcome now).2
      (WorkerCoordinator.finishedEvent runId eventId outcome now)).isSome := by
    refine appendEvent_of_free present eventFree ?_
    rintro id other isEvent ⟨ofRun, same⟩
    obtain ⟨run, isRun, below⟩ := numbered id other isEvent
    obtain rfl : old = run := by
      rw [ofRun] at isRun
      exact Option.some.inj (found.symm.trans isRun)
    exact below.ne same
  unfold WorkerCoordinator.finish
  split
  · rename_i refused
    rw [refused] at answered
    cases answered
  · rename_i run finished isFinished
    rw [isFinished] at appended
    rw [Option.isSome_map]
    exact appended

/-- What an end has changed. -/
theorem endsTogether_of_finish {run : Run} {store' : Store}
    (done : WorkerCoordinator.finish workerId store runId eventId outcome now =
      some (run, store')) :
    ∃ old, store.runs.lookup runId = some old ∧ RunRepository.OwnedBy workerId old ∧
      EndsTogether workerId store runId eventId outcome now old store' := by
  obtain ⟨old, finishes⟩ := WorkerCoordinator.finish_spec done
  have targets : ∀ id, store'.targets.lookup id = (store.targets.lookup id).map fun target =>
      if target.runId = runId ∧ target.status.open? then
        { target with
          status := RunRepository.fallbackTargetStatus outcome.status
          finishedAt := some now }
      else target := by
    intro id
    rw [finishes.targets, RunRepository.finish_targets]
  have audit : store'.audit = store.audit ++
      [{ action := .runFinished outcome.status
         workerId := some workerId
         runId := some runId }] := by
    unfold WorkerCoordinator.finish at done
    split at done
    · cases done
    · rename_i row finished isFinished
      obtain ⟨appended, isAppended, same⟩ := Option.map_eq_some_iff.mp done
      obtain ⟨-, -, -, -, -, after⟩ := RunRepository.appendEvent_spec isAppended
      obtain ⟨-, rfl⟩ := Prod.mk.inj same
      obtain rfl : finished = (RunRepository.finish store runId workerId outcome now).2 := by
        rw [isFinished]
      rw [after]
      rfl
  refine ⟨old, finishes.found, finishes.owned, ?_, ?_, targets, ?_, ?_, ?_, finishes.events, audit,
    finishes.secretInputs, finishes.shells⟩
  · rw [finishes.runs, if_pos rfl]
  · intro id other
    rw [finishes.runs, if_neg (Ne.symm other)]
  · intro id target isThere ofRun
    rw [targets] at isThere
    obtain ⟨before, -, rfl⟩ := Option.map_eq_some_iff.mp isThere
    by_cases isOpen : before.runId = runId ∧ before.status.open?
    · rw [if_pos isOpen]
      exact RunRepository.fallbackTargetStatus_closed outcome.status
    · rw [if_neg isOpen] at ofRun ⊢
      exact Bool.eq_false_iff.mpr fun still => isOpen ⟨ofRun, still⟩
  · intro host lock
    rw [finishes.locks, RunRepository.finish_locks]
  · intro id
    rw [finishes.leases, RunRepository.finish_leases]

end Finish

/-- **All or nothing.**  In every reachable state, a worker that does not own the run
raises, and what it has written is gone; the owner ends the run, with everything that
belongs to its end, under an event id that is new. -/
theorem finish_all_or_nothing {world : World} (reached : deployment.Reachable world)
    (workerId : String) (runId eventId : Uuid) (outcome : RunRepository.Outcome) (now : Nat) :
    (¬ Owns world.store workerId runId →
      WorkerCoordinator.finish workerId world.store runId eventId outcome now = none ∧
        committed world.store
          (WorkerCoordinator.finish workerId world.store runId eventId outcome now) =
            world.store) ∧
    (Owns world.store workerId runId → world.store.events.lookup eventId = none →
      ∃ run store' old, WorkerCoordinator.finish workerId world.store runId eventId outcome now =
          some (run, store') ∧ world.store.runs.lookup runId = some old ∧
        EndsTogether workerId world.store runId eventId outcome now old store') := by
  refine ⟨fun foreign => ?_, fun ⟨old, found, owned⟩ eventFree => ?_⟩
  · rw [finish_of_not_owns foreign]
    exact ⟨rfl, rfl⟩
  · have numbered := eventsNumbered_inductive.of_reachable reached
    obtain ⟨⟨run, store'⟩, done⟩ := Option.isSome_iff_exists.mp
      (finish_of_owns numbered eventFree found owned)
    obtain ⟨old, isOld, -, ends⟩ := endsTogether_of_finish done
    exact ⟨run, store', old, done, isOld, ends⟩

/-- Of two workers the one that has claimed the run ends it, and the other one raises. -/
theorem finish_all_or_nothing_firstClaim : ∃ world, deployment.Reachable world ∧
    WorkerCoordinator.finish "b" world.store 1 2 { status := .succeeded } 9 = none ∧
    ∃ run store', WorkerCoordinator.finish "a" world.store 1 2 { status := .succeeded } 9 =
        some (run, store') ∧ ∀ host lock, store'.locks.lookup host = some lock →
          lock.runId? ≠ some 1 := by
  have ran : (deployment.exec .start firstClaim).bind (fun world =>
      (world.store.runs.lookup 1).map fun run =>
        (run.status, run.claimedBy, (world.store.events.lookup 2).isNone)) =
      some (.preparing, some "a", true) := by decide
  obtain ⟨world, done, shown⟩ := Option.bind_eq_some_iff.mp ran
  obtain ⟨old, found, same⟩ := Option.map_eq_some_iff.mp shown
  obtain ⟨status, byA, free⟩ : old.status = .preparing ∧ old.claimedBy = some "a" ∧
      (world.store.events.lookup 2).isNone = true := by simpa using same
  have reached := reachable_of_exec done
  have foreign : ¬ Owns world.store "b" 1 := by
    rintro ⟨run, isRun, byB, -⟩
    obtain rfl : old = run := Option.some.inj (found.symm.trans isRun)
    rw [byA] at byB
    exact absurd byB (by decide)
  have owns : Owns world.store "a" 1 := ⟨old, found, byA, by rw [status]; rfl⟩
  obtain ⟨run, store', old', ended, -, ends⟩ := (finish_all_or_nothing reached "a" 1 2
    { status := .succeeded } 9).2 owns (Option.isNone_iff_eq_none.mp free)
  refine ⟨world, reached, ?_, run, store', ended, fun host lock isLock => ?_⟩
  · exact ((finish_all_or_nothing reached "b" 1 2 { status := .succeeded } 9).1 foreign).1
  · exact ((ends.locks host lock).mp isLock).2

end OpsComposer.Cluster
