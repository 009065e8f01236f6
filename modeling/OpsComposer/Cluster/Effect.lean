import OpsComposer.Cluster.World

/-!
# What a step of the deployment can do

`Effect world action store` lists, once and for all, the ways in which a step
changes the tables that executions depend on: runs, targets, events, leases,
locks and web-shell sessions; `SecretChange` does the same for the stored secret
inputs.  `effect_of_step` and `secretChange_of_step` prove that every step is
one of them, so an invariant of the deployment is proved by cases on the effect
and no proof opens the services again.

What the step does to the worker processes is separate: `worker_of_step` says
where a process after the step comes from.
-/

set_option autoImplicit false

namespace OpsComposer.Cluster

open Domain Foundations Repositories Services

/-- Two stores agree on everything that executions depend on. -/
structure SameExecutions (store store' : Store) : Prop where
  runs : store'.runs = store.runs
  targets : store'.targets = store.targets
  events : store'.events = store.events
  leases : store'.leases = store.leases
  locks : store'.locks = store.locks
  shells : store'.shells = store.shells

theorem SameExecutions.refl (store : Store) : SameExecutions store store :=
  ⟨rfl, rfl, rfl, rfl, rfl, rfl⟩

theorem SameExecutions.record (store : Store) (event : AuditEvent) :
    SameExecutions store (store.record event) :=
  ⟨rfl, rfl, rfl, rfl, rfl, rfl⟩

/-- The run that a process executes, or was executing when it failed. -/
def Stage.run? : Stage → Option Uuid
  | .executing _ runId => some runId
  | .failed _ activeRun => activeRun
  | _ => none

/-- The actions of a worker process that renew its lease. -/
def WorkerAction.renews : WorkerAction → Bool
  | .heartbeat | .claim _ | .monitorHeartbeat => true
  | _ => false

/-- The steps that renew the lease of a worker. -/
def Action.renews : Action → Bool
  | .worker _ action => action.renews
  | _ => false

/-- The ways in which a step changes the tables of executions. -/
inductive Effect (world : World) : Action → Store → Prop where
  | quiet {action : Action} {store : Store} (same : SameExecutions world.store store) :
      Effect world action store
  | create {draft : RunService.Draft} {unconfirmed : List Uuid} {store : Store}
      (creates : RunService.Creates world.store draft store) :
      Effect world (.createRun draft unconfirmed) store
  | cancel {runId requestedBy eventId : Uuid} {current : Run} {store : Store}
      (cancels : RunService.Cancels world.store runId eventId world.clock current store) :
      Effect world (.cancelRun runId requestedBy eventId) store
  | recover {worker : WorkerProcess} {store : Store}
      (found : world.workers.lookup worker.processId = some worker)
      (starting : worker.stage = .starting)
      (same : SameExecutions (RunRepository.recoverStale world.store world.clock).2 store) :
      Effect world (.worker worker.processId .recoverStale) store
  | renew {worker : WorkerProcess} {action : WorkerAction} {runId : Option Uuid} {store : Store}
      (found : world.workers.lookup worker.processId = some worker) (renews : action.renews = true)
      (same : SameExecutions (RunRepository.heartbeat world.store worker.workerId runId world.clock
        (worker.settings.leaseUntil world.clock)) store) :
      Effect world (.worker worker.processId action) store
  | claim {worker : WorkerProcess} {skipped : List Uuid} {old : Run} {store : Store}
      (found : world.workers.lookup worker.processId = some worker)
      (claims : WorkerCoordinator.Claims worker.settings worker.workerId world.store world.clock old
        store) :
      Effect world (.worker worker.processId (.claim skipped)) store
  | start {worker : WorkerProcess} {runId : Uuid} {store : Store}
      (found : world.workers.lookup worker.processId = some worker)
      (executing : worker.stage.run? = some runId)
      (same : SameExecutions (RunRepository.markRunning world.store runId world.clock) store) :
      Effect world (.worker worker.processId .markRunning) store
  | append {worker : WorkerProcess} {runId eventId : Uuid} {draft : WorkerCoordinator.EventDraft}
      {event : RunEvent} {run : Run} {store : Store}
      (found : world.workers.lookup worker.processId = some worker)
      (executing : worker.stage.run? = some runId) (ofRun : event.runId = runId)
      (appends : RunRepository.Appends world.store event run store) :
      Effect world (.worker worker.processId (.appendEvent eventId draft)) store
  | report {worker : WorkerProcess} {runId hostId : Uuid} {target : RunTarget}
      {result : RunRepository.TargetResult} {store : Store}
      (found : world.workers.lookup worker.processId = some worker)
      (executing : worker.stage.run? = some runId)
      (present : world.store.targets.lookup target.runTargetId = some target)
      (ofRun : target.runId = runId) (closed : result.status.open? = false)
      (same : SameExecutions
        (RunRepository.finishTarget world.store target.runTargetId result world.clock) store) :
      Effect world (.worker worker.processId (.finishTarget target.runTargetId hostId result)) store
  | finish {worker : WorkerProcess} {action : WorkerAction} {runId eventId : Uuid}
      {outcome : RunRepository.Outcome} {old : Run} {store : Store}
      (found : world.workers.lookup worker.processId = some worker)
      (executing : worker.stage.run? = some runId) (ends : outcome.status.terminal = true)
      (renewsNot : action.renews = false)
      (finishes : WorkerCoordinator.Finishes worker.workerId world.store runId eventId outcome
        world.clock old store) :
      Effect world (.worker worker.processId action) store
  | openShell {maxSessions webShellSessionId hostId : Nat} {principal : Principal}
      {instanceId : String} {reading : WebShellService.HostReading}
      {target : WebShellService.ResolvedTarget} {store : Store}
      (opens : WebShellService.Opens world.store maxSessions webShellSessionId hostId principal
        instanceId world.clock target store) :
      Effect world (.shell (.create maxSessions webShellSessionId hostId principal instanceId reading))
        store
  | activateShell {webShellSessionId : Uuid} {principal : Principal} {ownerId : String}
      {launchable : Bool} {current : WebShellSession} {store : Store}
      (activates : WebShellService.Activates world.store webShellSessionId principal ownerId
        world.clock current store) :
      Effect world (.shell (.claim webShellSessionId principal ownerId launchable)) store
  | refreshShell {webShellSessionId : Uuid} {ownerId : String} {lastActivityAt : Nat} :
      Effect world (.shell (.heartbeat webShellSessionId ownerId lastActivityAt))
        (WebShellRepository.heartbeat world.store webShellSessionId ownerId world.clock
          (world.clock + seconds WebShellService.leaseSeconds) lastActivityAt).2
  | closeShell {webShellSessionId : Uuid} {principal : Principal} {store : Store}
      (same : SameExecutions (WebShellRepository.markCloseRequested world.store webShellSessionId
        principal.userId world.clock).2 store) :
      Effect world (.shell (.requestClose webShellSessionId principal)) store
  | dropShells {action : ShellAction} {store : Store} (Gone : WebShellSession → Prop)
      [DecidablePred Gone]
      (same : SameExecutions (WebShellRepository.deleteWhere world.store Gone) store) :
      Effect world (.shell action) store

/-- What a step does to the stored secret inputs. -/
inductive SecretChange (world : World) : Action → Store → Prop where
  | kept {action : Action} {store : Store}
      (same : store.secretInputs = world.store.secretInputs) : SecretChange world action store
  | stored {draft : RunService.Draft} {unconfirmed : List Uuid} {store : Store}
      (creates : RunService.Creates world.store draft store) :
      SecretChange world (.createRun draft unconfirmed) store
  | consumed {worker : WorkerProcess} {begun : Nat} {runId : Uuid} {input : RunSecretInput}
      {store : Store} (found : world.workers.lookup worker.processId = some worker)
      (executing : worker.stage = .executing begun runId)
      (present : world.store.secretInputs.lookup runId = some input)
      (gone : store.secretInputs =
        world.store.secretInputs.delete fun row => row.runId = runId) :
      SecretChange world (.worker worker.processId .consumeSecrets) store

/-! ## Every step is one of the effects -/

section Worker

variable {world world' : World} {worker : WorkerProcess}
  (found : world.workers.lookup worker.processId = some worker)

include found

theorem changes_of_execute {begun : Nat} {runId : Uuid} {action : WorkerAction}
    (executing : worker.stage = .executing begun runId)
    (step : World.execute world worker begun runId action = some world') :
    Effect world (.worker worker.processId action) world'.store ∧
      SecretChange world (.worker worker.processId action) world'.store := by
  have current : worker.stage.run? = some runId := by
    rw [executing]
    rfl
  cases action with
  | consumeSecrets =>
      obtain ⟨consumed, done, rfl⟩ := Option.map_eq_some_iff.mp step
      obtain ⟨input, present, rfl⟩ := Option.map_eq_some_iff.mp done
      exact ⟨.quiet ⟨rfl, rfl, rfl, rfl, rfl, rfl⟩, .consumed found executing present rfl⟩
  | monitorHeartbeat =>
      obtain rfl := Option.some.inj step
      exact ⟨.renew found rfl (.refl _), .kept rfl⟩
  | markRunning =>
      obtain rfl := Option.some.inj step
      exact ⟨.start found current (.record _ _), .kept rfl⟩
  | appendEvent eventId draft =>
      obtain ⟨store, done, rfl⟩ := Option.map_eq_some_iff.mp step
      obtain ⟨⟨row, stored⟩, appended, rfl⟩ := Option.map_eq_some_iff.mp done
      obtain ⟨run, appends⟩ := RunRepository.appends_of_appendEvent appended
      exact ⟨.append found current rfl appends, .kept appends.secretInputs⟩
  | finishTarget runTargetId hostId result =>
      simp only [World.execute] at step
      split at step
      · rename_i allowed
        obtain ⟨⟨target, present, ofRun⟩, closed⟩ := allowed
        obtain rfl := Option.some.inj step
        obtain rfl := Table.key_of_lookup present
        exact ⟨.report found current present ofRun closed (.record _ _), .kept rfl⟩
      · cases step
  | finish eventId outcome =>
      simp only [World.execute] at step
      split at step
      · rename_i ends
        obtain ⟨⟨_, store⟩, done, rfl⟩ := Option.map_eq_some_iff.mp step
        obtain ⟨old, finishes⟩ := WorkerCoordinator.finish_spec done
        exact ⟨.finish found current ends rfl finishes, .kept finishes.secretInputs⟩
      · cases step
  | fail =>
      obtain rfl := Option.some.inj step
      exact ⟨.quiet (.refl _), .kept rfl⟩
  | _ => cases step

theorem changes_of_work {action : WorkerAction}
    (step : World.work world worker action = some world') :
    Effect world (.worker worker.processId action) world'.store ∧
      SecretChange world (.worker worker.processId action) world'.store := by
  unfold World.work at step
  split at step
  case h_1 starting =>
    obtain rfl := Option.some.inj step
    simp only [World.moved_store, WorkerCoordinator.recoverStale]
    split
    · exact ⟨.recover found starting (.refl _), .kept rfl⟩
    · exact ⟨.recover found starting (.record _ _), .kept rfl⟩
  case h_2 =>
    obtain rfl := Option.some.inj step
    exact ⟨.quiet (.refl _), .kept rfl⟩
  case h_3 =>
    obtain rfl := Option.some.inj step
    exact ⟨.renew found rfl (.refl _), .kept rfl⟩
  case h_4 begun skipped _ =>
    simp only at step
    split at step
    · rename_i idle
      obtain rfl := Option.some.inj step
      rcases WorkerCoordinator.claim_idle idle with same | same
      · rw [World.moved_store, same]
        exact ⟨.renew found rfl (.refl _), .kept rfl⟩
      · rw [World.moved_store, same]
        exact ⟨.quiet (.record _ _), .kept rfl⟩
    · rename_i run claimed
      obtain rfl := Option.some.inj step
      obtain ⟨old, _, claims⟩ := WorkerCoordinator.claim_claimed claimed
      exact ⟨.claim found claims, .kept claims.secretInputs⟩
  case h_5 begun runId executing => exact changes_of_execute found executing step
  case h_6 =>
    obtain rfl := Option.some.inj step
    exact ⟨.quiet (.refl _), .kept rfl⟩
  case h_7 =>
    obtain rfl := Option.some.inj step
    exact ⟨.quiet (.refl _), .kept rfl⟩
  case h_8 begun runId eventId failed =>
    obtain ⟨⟨run, store⟩, done, rfl⟩ := Option.map_eq_some_iff.mp step
    obtain ⟨old, finishes⟩ := WorkerCoordinator.finish_spec done
    exact ⟨.finish found (by rw [failed]; rfl) rfl rfl finishes, .kept finishes.secretInputs⟩
  case h_9 =>
    obtain rfl := Option.some.inj step
    exact ⟨.quiet (.refl _), .kept rfl⟩
  case h_10 => cases step

end Worker

theorem changes_of_shell {world : World} {action : ShellAction} {store : Store}
    (done : World.shellStore world action = some store) :
    Effect world (.shell action) store ∧ SecretChange world (.shell action) store := by
  cases action with
  | create maxSessions webShellSessionId hostId principal instanceId reading =>
      simp only [World.shellStore] at done
      split at done
      · rename_i session stored created
        obtain rfl := Option.some.inj done
        obtain ⟨target, opens⟩ := WebShellService.create_spec created
        exact ⟨.openShell opens, .kept opens.secretInputs⟩
      · cases done
  | claim webShellSessionId principal ownerId launchable =>
      simp only [World.shellStore] at done
      split at done
      · rename_i session stored claimed
        obtain rfl := Option.some.inj done
        obtain ⟨current, activates⟩ := WebShellService.claim_spec claimed
        exact ⟨.activateShell activates, .kept activates.secretInputs⟩
      · cases done
  | heartbeat webShellSessionId ownerId lastActivityAt =>
      obtain rfl := Option.some.inj done
      rw [WebShellService.heartbeat_store]
      exact ⟨.refreshShell, .kept rfl⟩
  | requestClose webShellSessionId principal =>
      obtain rfl := Option.some.inj done
      unfold WebShellService.requestClose
      split
      · exact ⟨.quiet (.refl _), .kept rfl⟩
      split
      · exact ⟨.quiet (.refl _), .kept rfl⟩
      split
      · exact ⟨.dropShells _ (.record _ _), .kept rfl⟩
      · simp only
        split
        · exact ⟨.closeShell (.record _ _), .kept rfl⟩
        · exact ⟨.closeShell (.refl _), .kept rfl⟩
      · exact ⟨.quiet (.refl _), .kept rfl⟩
  | finish webShellSessionId ownerId =>
      obtain rfl := Option.some.inj done
      have dropped : (WebShellRepository.delete world.store webShellSessionId (some ownerId)).2 =
          WebShellRepository.deleteWhere world.store
            (WebShellRepository.Deletable webShellSessionId (some ownerId)) := rfl
      unfold WebShellService.finish
      split
      · rename_i stored nothing
        obtain rfl : stored = _ := by simpa [nothing] using dropped
        exact ⟨.dropShells _ (.refl _), .kept rfl⟩
      · rename_i session stored deleted
        obtain rfl : stored = _ := by simpa [deleted] using dropped
        exact ⟨.dropShells _ (.record _ _), .kept rfl⟩
  | recoverStale =>
      obtain rfl := Option.some.inj done
      obtain ⟨audit, cleaned⟩ :=
        WebShellService.recordCleanup_cleanupExpired world.store world.clock
      unfold WebShellService.recoverStale
      rw [cleaned]
      exact ⟨.dropShells _ ⟨rfl, rfl, rfl, rfl, rfl, rfl⟩, .kept rfl⟩

/-- A step is opened once, for the tables of executions and for the secret inputs. -/
theorem changes_of_step {world world' : World} {action : Action}
    (step : world.step action = some world') :
    Effect world action world'.store ∧ SecretChange world action world'.store := by
  cases action with
  | tick elapsed | crash processId =>
      obtain rfl := Option.some.inj step
      exact ⟨.quiet (.refl _), .kept rfl⟩
  | createRun draft unconfirmed =>
      simp only [World.step] at step
      split at step
      · rename_i answer store persisted
        obtain rfl := Option.some.inj step
        obtain ⟨run, created⟩ := answer
        cases created with
        | true =>
            have creates := (RunService.persist_created persisted).2.2
            exact ⟨.create creates, .stored creates⟩
        | false =>
            obtain ⟨_, _, rfl⟩ := RunService.persist_replayed persisted
            exact ⟨.quiet (.record _ _), .kept rfl⟩
      · cases step
  | cancelRun runId requestedBy eventId =>
      simp only [World.step] at step
      split at step
      · rename_i run store canceled
        obtain rfl := Option.some.inj step
        obtain ⟨current, cancels⟩ := RunService.cancel_spec canceled
        exact ⟨.cancel cancels, .kept cancels.secretInputs⟩
      · cases step
  | spawn processId workerId settings =>
      obtain ⟨workers, _, rfl⟩ := Option.map_eq_some_iff.mp step
      exact ⟨.quiet (.refl _), .kept rfl⟩
  | worker processId action =>
      simp only [World.step] at step
      split at step
      · cases step
      · rename_i worker found
        obtain rfl := Table.key_of_lookup found
        exact changes_of_work found step
  | shell action =>
      obtain ⟨store, done, rfl⟩ := Option.map_eq_some_iff.mp step
      exact changes_of_shell done
  | authenticate logins users =>
      obtain rfl := Option.some.inj step
      exact ⟨.quiet ⟨rfl, rfl, rfl, rfl, rfl, rfl⟩, .kept rfl⟩

/-- **Every step of the deployment has one of the listed effects.** -/
theorem effect_of_step {world world' : World} {action : Action}
    (step : world.step action = some world') : Effect world action world'.store :=
  (changes_of_step step).1

/-- **Every step stores, consumes or keeps the secret inputs.** -/
theorem secretChange_of_step {world world' : World} {action : Action}
    (step : world.step action = some world') : SecretChange world action world'.store :=
  (changes_of_step step).2

/-! ## Worker processes -/

/-- The instant at which the iteration began in which a process is. -/
def Stage.begun? : Stage → Option Nat
  | .starting | .idle => none
  | .polling begun | .ready begun | .executing begun _ | .failed begun _ => some begun

/-- How the stage of a process follows from the one before: it executes the same
run or one that has just been claimed under its id, and it is in the same
iteration or in one that begins now. -/
structure Follows (clock : Nat) (worker : WorkerProcess) (action : WorkerAction) (stage : Stage)
    (store : Store) : Prop where
  run : ∀ runId, stage.run? = some runId → worker.stage.run? = some runId ∨
    ∃ run, store.runs.lookup runId = some run ∧ run.claimedBy = some worker.workerId
  begun : ∀ begun, stage.begun? = some begun → worker.stage.begun? = some begun ∨
    action = .beginIteration ∧ begun = clock

section Follows

variable {clock : Nat} {worker : WorkerProcess} {action : WorkerAction} {stage : Stage}
  {store : Store}

theorem Follows.of_same (run : stage.run? = worker.stage.run?)
    (begun : stage.begun? = worker.stage.begun?) : Follows clock worker action stage store where
  run _ executing := .inl (run ▸ executing)
  begun _ iterating := .inl (begun ▸ iterating)

theorem Follows.of_no_run (idle : stage.run? = none)
    (begun : stage.begun? = none ∨ stage.begun? = worker.stage.begun?) :
    Follows clock worker action stage store where
  run runId executing := by
    rw [idle] at executing
    cases executing
  begun b iterating := by
    rcases begun with none | same
    · rw [none] at iterating
      cases iterating
    · exact .inl (same ▸ iterating)

end Follows

variable {action : Action} {worker' : WorkerProcess} {world world' : World}

theorem moved_of_execute {worker : WorkerProcess} {begun : Nat}
    {runId : Uuid} {action : WorkerAction} (executing : worker.stage = .executing begun runId)
    (step : World.execute world worker begun runId action = some world') :
    ∃ stage store, world' = world.moved worker stage store ∧
      Follows world.clock worker action stage store := by
  cases action with
  | consumeSecrets =>
      obtain ⟨consumed, _, rfl⟩ := Option.map_eq_some_iff.mp step
      exact ⟨_, _, rfl, .of_same rfl rfl⟩
  | monitorHeartbeat | markRunning => exact ⟨_, _, (Option.some.inj step).symm, .of_same rfl rfl⟩
  | appendEvent eventId draft =>
      obtain ⟨store, _, rfl⟩ := Option.map_eq_some_iff.mp step
      exact ⟨_, _, rfl, .of_same rfl rfl⟩
  | finishTarget runTargetId hostId result =>
      simp only [World.execute] at step
      split at step
      · exact ⟨_, _, (Option.some.inj step).symm, .of_same rfl rfl⟩
      · cases step
  | finish eventId outcome =>
      simp only [World.execute] at step
      split at step
      · obtain ⟨done, _, rfl⟩ := Option.map_eq_some_iff.mp step
        exact ⟨_, _, rfl, .of_no_run rfl (.inl rfl)⟩
      · cases step
  | fail =>
      exact ⟨_, _, (Option.some.inj step).symm, .of_same (by rw [executing]; rfl)
        (by rw [executing]; rfl)⟩
  | _ => cases step

theorem moved_of_work {worker : WorkerProcess} {action : WorkerAction}
    (step : World.work world worker action = some world') :
    ∃ stage store, world' = world.moved worker stage store ∧
      Follows world.clock worker action stage store := by
  unfold World.work at step
  split at step
  case h_1 => exact ⟨_, _, (Option.some.inj step).symm, .of_no_run rfl (.inl rfl)⟩
  case h_2 =>
    refine ⟨_, _, (Option.some.inj step).symm, ⟨fun _ impossible => (by cases impossible), ?_⟩⟩
    rintro begun ⟨⟩
    exact .inr ⟨rfl, rfl⟩
  case h_3 begun polling =>
    exact ⟨_, _, (Option.some.inj step).symm, .of_no_run rfl (.inr (by rw [polling]; rfl))⟩
  case h_4 begun skipped ready =>
    simp only at step
    split at step
    · exact ⟨_, _, (Option.some.inj step).symm, .of_no_run rfl (.inl rfl)⟩
    · rename_i run claimed
      refine ⟨_, _, (Option.some.inj step).symm, ?_, ?_⟩
      · rintro runId ⟨⟩
        obtain ⟨old, rfl, claims⟩ := WorkerCoordinator.claim_claimed claimed
        have now := claims.runs old.runId
        rw [if_pos rfl] at now
        exact .inr ⟨_, now, rfl⟩
      · rintro begun ⟨⟩
        exact .inl (by rw [ready]; rfl)
  case h_5 begun runId executing => exact moved_of_execute executing step
  case h_6 begun polling =>
    exact ⟨_, _, (Option.some.inj step).symm, .of_no_run rfl (.inr (by rw [polling]; rfl))⟩
  case h_7 begun ready =>
    exact ⟨_, _, (Option.some.inj step).symm, .of_no_run rfl (.inr (by rw [ready]; rfl))⟩
  case h_8 =>
    obtain ⟨done, _, rfl⟩ := Option.map_eq_some_iff.mp step
    exact ⟨_, _, rfl, .of_no_run rfl (.inl rfl)⟩
  case h_9 => exact ⟨_, _, (Option.some.inj step).symm, .of_no_run rfl (.inl rfl)⟩
  case h_10 => cases step

/-- Where a process after a step comes from. -/
inductive WorkerStep (world world' : World) (id : Uuid) (worker' : WorkerProcess) :
    Action → Prop where
  | kept {action : Action} (found : world.workers.lookup id = some worker') :
      WorkerStep world world' id worker' action
  | spawned {action : Action} (starting : worker'.stage = .starting) :
      WorkerStep world world' id worker' action
  | moved {worker : WorkerProcess} {action : WorkerAction}
      (found : world.workers.lookup id = some worker) (sameId : worker'.workerId = worker.workerId)
      (follows : Follows world.clock worker action worker'.stage world'.store) :
      WorkerStep world world' id worker' (.worker id action)

/-- **Every process after a step was there before, has just been spawned, or has
moved on by its own action.** -/
theorem worker_of_step (step : world.step action = some world') {id : Uuid}
    (found : world'.workers.lookup id = some worker') :
    WorkerStep world world' id worker' action := by
  cases action with
  | tick elapsed | authenticate logins users =>
      obtain rfl := Option.some.inj step
      exact .kept found
  | createRun draft unconfirmed | cancelRun canceled requestedBy eventId =>
      simp only [World.step] at step
      split at step
      · obtain rfl := Option.some.inj step
        exact .kept found
      · cases step
  | spawn processId workerId settings =>
      obtain ⟨workers, inserted, rfl⟩ := Option.map_eq_some_iff.mp step
      obtain ⟨_, rfl⟩ := Table.insert?_eq_some.mp inserted
      simp only [Table.lookup_put] at found
      split at found
      · obtain rfl := Option.some.inj found
        exact .spawned rfl
      · exact .kept found
  | crash processId =>
      obtain rfl := Option.some.inj step
      exact .kept (Table.lookup_delete_eq_some.mp found).1
  | worker processId action =>
      simp only [World.step] at step
      split at step
      · cases step
      rename_i worker present
      obtain ⟨stage, store, rfl, follows⟩ := moved_of_work step
      simp only [World.moved, Table.lookup_put] at found
      have named := Table.key_of_lookup present
      split at found
      · rename_i same
        obtain rfl := Option.some.inj found
        obtain rfl : processId = id := named.symm.trans same
        exact .moved present rfl follows
      · exact .kept found
  | shell action =>
      obtain ⟨store, _, rfl⟩ := Option.map_eq_some_iff.mp step
      exact .kept found

/-- **The run of a process after a step** is the one it executed before, or one
that has just been claimed under its worker id. -/
theorem run?_of_step
    (step : world.step action = some world') {id runId : Uuid}
    (found : world'.workers.lookup id = some worker')
    (executing : worker'.stage.run? = some runId) :
    (∃ worker, world.workers.lookup id = some worker ∧ worker.workerId = worker'.workerId ∧
      worker.stage.run? = some runId) ∨
    ∃ run, world'.store.runs.lookup runId = some run ∧ run.claimedBy = some worker'.workerId := by
  cases worker_of_step step found with
  | kept before => exact .inl ⟨worker', before, rfl, executing⟩
  | spawned starting =>
      rw [starting] at executing
      cases executing
  | @moved worker _ before sameId follows =>
      rcases follows.run runId executing with old | fresh
      · exact .inl ⟨worker, before, sameId.symm, old⟩
      · rw [sameId]
        exact .inr fresh

/-- **The iteration of a process after a step** is the one it was in before, or
one that begins now. -/
theorem begun?_of_step (step : world.step action = some world') {id begun : Nat}
    (found : world'.workers.lookup id = some worker')
    (iterating : worker'.stage.begun? = some begun) :
    (∃ worker, world.workers.lookup id = some worker ∧ worker.stage.begun? = some begun) ∨
    action = .worker id .beginIteration ∧ begun = world.clock := by
  cases worker_of_step step found with
  | kept before => exact .inl ⟨worker', before, iterating⟩
  | spawned starting =>
      rw [starting] at iterating
      cases iterating
  | @moved worker _ before _ follows =>
      rcases follows.begun begun iterating with old | ⟨rfl, now⟩
      · exact .inl ⟨worker, before, old⟩
      · exact .inr ⟨rfl, now⟩

/-- Time does not run backwards. -/
theorem clock_le_of_step (step : world.step action = some world') : world.clock ≤ world'.clock := by
  cases action with
  | tick elapsed =>
      obtain rfl := Option.some.inj step
      exact Nat.le_add_right _ _
  | createRun draft unconfirmed | cancelRun runId requestedBy eventId =>
      simp only [World.step] at step
      split at step
      · obtain rfl := Option.some.inj step
        exact Nat.le_refl _
      · cases step
  | spawn processId workerId settings =>
      obtain ⟨workers, _, rfl⟩ := Option.map_eq_some_iff.mp step
      exact Nat.le_refl _
  | crash processId | authenticate logins users =>
      obtain rfl := Option.some.inj step
      exact Nat.le_refl _
  | worker processId action =>
      simp only [World.step] at step
      split at step
      · cases step
      · obtain ⟨stage, store, rfl, _⟩ := moved_of_work step
        exact Nat.le_refl _
  | shell action =>
      obtain ⟨store, _, rfl⟩ := Option.map_eq_some_iff.mp step
      exact Nat.le_refl _

end OpsComposer.Cluster
