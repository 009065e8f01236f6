import OpsComposer.Foundations.Transition
import OpsComposer.Services.Runs
import OpsComposer.Services.WebShell

/-!
# The running deployment

Any number of worker processes, API clients and web-shell owners act on one
database.  A `World` is the committed store, the one global clock and the
worker processes that are alive; every action is one unit of work, committed
at one instant, or the passage of time, or the start or the death of a process.

A worker process follows `run_worker`: start-up recovery, then iterations of a
heartbeat, a claim and the execution of the claimed run.  Between claim and end
`execute_run` issues its writes for its own run only; the model lets it issue
them in any order and number, so the orders that `execute_run` produces are
among the runs of the model.  An exception leads into the handler of the loop,
which interrupts the run it was executing.

Two worker processes may be alive under one worker id: the id is a setting.
-/

set_option autoImplicit false

namespace OpsComposer.Cluster

open Domain Foundations Repositories Services

/-! ## Worker processes -/

/-- Where a worker process stands in `run_worker`; an iteration remembers the
instant at which it began. -/
inductive Stage where
  /-- Before the start-up recovery. -/
  | starting
  /-- Between two iterations of the main loop. -/
  | idle
  /-- In an iteration, before its heartbeat. -/
  | polling (begun : Nat)
  /-- In an iteration, before its claim. -/
  | ready (begun : Nat)
  /-- Executing a claimed run. -/
  | executing (begun : Nat) (runId : Uuid)
  /-- In the exception handler, with the run that was being executed. -/
  | failed (begun : Nat) (activeRun : Option Uuid)
  deriving DecidableEq

/-- A worker process that is alive. -/
structure WorkerProcess where
  processId : Uuid
  workerId : String
  settings : WorkerSettings
  stage : Stage

/-- What a worker process does next. -/
inductive WorkerAction where
  | recoverStale
  | beginIteration
  | heartbeat
  | claim (skipped : List Uuid)
  | consumeSecrets
  | monitorHeartbeat
  | markRunning
  | appendEvent (eventId : Uuid) (draft : WorkerCoordinator.EventDraft)
  | finishTarget (runTargetId hostId : Uuid) (result : RunRepository.TargetResult)
  | finish (eventId : Uuid) (outcome : RunRepository.Outcome)
  | fail
  | interrupt (eventId : Uuid)
  | resume

/-- What the owner or the user of a web shell does next. -/
inductive ShellAction where
  | create (maxSessions : Nat) (webShellSessionId hostId : Uuid) (principal : Principal)
      (instanceId : String) (reading : WebShellService.HostReading)
  | claim (webShellSessionId : Uuid) (principal : Principal) (ownerId : String)
      (launchable : Bool)
  | heartbeat (webShellSessionId : Uuid) (ownerId : String) (lastActivityAt : Nat)
  | requestClose (webShellSessionId : Uuid) (principal : Principal)
  | finish (webShellSessionId : Uuid) (ownerId : String)
  | recoverStale

/-- One step of the deployment. -/
inductive Action where
  | tick (elapsed : Nat)
  | createRun (draft : RunService.Draft) (unconfirmed : List Uuid)
  | cancelRun (runId requestedBy eventId : Uuid)
  | spawn (processId : Uuid) (workerId : String) (settings : WorkerSettings)
  | crash (processId : Uuid)
  | worker (processId : Uuid) (action : WorkerAction)
  | shell (action : ShellAction)
  | authenticate (logins : Table LoginSession.sessionId) (users : Table LoginUser.userId)

/-! ## The world -/

/-- The shared tables, and the processes that work on them. -/
structure World where
  clock : Nat
  store : Store
  workers : Table WorkerProcess.processId

namespace World

/-- A freshly migrated database without workers. -/
def start : World where
  clock := 0
  store := .empty
  workers := .empty

/-- Move a process on, and commit a store. -/
def moved (world : World) (worker : WorkerProcess) (stage : Stage) (store : Store) : World :=
  { world with
    store := store
    workers := world.workers.put { worker with stage := stage } }

section Moved

variable (world : World) (worker : WorkerProcess) (stage : Stage) (store : Store)

@[simp] theorem moved_clock : (world.moved worker stage store).clock = world.clock := rfl
@[simp] theorem moved_store : (world.moved worker stage store).store = store := rfl

end Moved

/-- The failure that the handler of the main loop records. -/
def loopFailure : RunRepository.Outcome where
  status := .interrupted
  failureCode := some "WORKER_LOOP_ERROR"
  failureMessage := some "worker loop failed during execution"

/-- The writes of `execute_run` for its run, and its last one. -/
def execute (world : World) (worker : WorkerProcess) (begun : Nat) (runId : Uuid) :
    WorkerAction → Option World
  | .consumeSecrets =>
      (RunRepository.consumeSecretInputs world.store runId).map fun consumed =>
        world.moved worker worker.stage
          (consumed.2.record { action := .runSecretInputConsumed, runId := some runId })
  | .monitorHeartbeat =>
      some (world.moved worker worker.stage
        (WorkerCoordinator.heartbeat worker.settings worker.workerId world.store (some runId)
          world.clock))
  | .markRunning =>
      some (world.moved worker worker.stage
        (WorkerCoordinator.markRunning worker.workerId world.store runId world.clock))
  | .appendEvent eventId draft =>
      (WorkerCoordinator.appendEvent worker.settings world.store runId eventId draft
        world.clock).map fun store => world.moved worker worker.stage store
  | .finishTarget runTargetId hostId result =>
      -- the accumulators were built from the run's own target rows, and no
      -- branch of `execute_run` reports an open status
      if (∃ target ∈ world.store.targets.lookup runTargetId, target.runId = runId) ∧
          result.status.open? = false then
        some (world.moved worker worker.stage
          (WorkerCoordinator.finishTarget worker.workerId world.store runId runTargetId hostId
            result world.clock))
      else none
  | .finish eventId outcome =>
      if outcome.status.terminal then
        (WorkerCoordinator.finish worker.workerId world.store runId eventId outcome
          world.clock).map fun done => world.moved worker .idle done.2
      else none
  | .fail => some (world.moved worker (.failed begun (some runId)) world.store)
  | _ => none

/-- One step of a worker process, by the stage it is in. -/
def work (world : World) (worker : WorkerProcess) (action : WorkerAction) : Option World :=
  match worker.stage, action with
  | .starting, .recoverStale =>
      some (world.moved worker .idle
        (WorkerCoordinator.recoverStale worker.workerId world.store world.clock))
  | .idle, .beginIteration => some (world.moved worker (.polling world.clock) world.store)
  | .polling begun, .heartbeat =>
      some (world.moved worker (.ready begun)
        (WorkerCoordinator.heartbeat worker.settings worker.workerId world.store none world.clock))
  | .ready begun, .claim skipped =>
      let claimed := WorkerCoordinator.claim worker.settings worker.workerId world.store
        world.clock skipped
      match claimed.1 with
      | none => some (world.moved worker .idle claimed.2)
      | some run => some (world.moved worker (.executing begun run.runId) claimed.2)
  | .executing begun runId, action => execute world worker begun runId action
  | .polling begun, .fail => some (world.moved worker (.failed begun none) world.store)
  | .ready begun, .fail => some (world.moved worker (.failed begun none) world.store)
  | .failed _ (some runId), .interrupt eventId =>
      (WorkerCoordinator.finish worker.workerId world.store runId eventId loopFailure
        world.clock).map fun done => world.moved worker .idle done.2
  | .failed _ none, .resume => some (world.moved worker .idle world.store)
  | _, _ => none

/-- One transaction of a web shell, with the store it commits. -/
def shellStore (world : World) : ShellAction → Option Store
  | .create maxSessions webShellSessionId hostId principal instanceId reading =>
      match WebShellService.create world.store maxSessions webShellSessionId hostId principal
        instanceId reading world.clock with
      | .ok (_, store) => some store
      | .error _ => none
  | .claim webShellSessionId principal ownerId launchable =>
      match WebShellService.claim world.store webShellSessionId principal ownerId launchable
        world.clock with
      | .ok (_, store) => some store
      | .error _ => none
  | .heartbeat webShellSessionId ownerId lastActivityAt =>
      some (WebShellService.heartbeat world.store webShellSessionId ownerId lastActivityAt
        world.clock).2
  | .requestClose webShellSessionId principal =>
      some (WebShellService.requestClose world.store webShellSessionId principal world.clock)
  | .finish webShellSessionId ownerId =>
      some (WebShellService.finish world.store webShellSessionId ownerId)
  | .recoverStale => some (WebShellService.recoverStale world.store world.clock)

/-- One step of the deployment; a transaction that rolls back is no step. -/
def step (world : World) : Action → Option World
  | .tick elapsed => some { world with clock := world.clock + elapsed }
  | .createRun draft unconfirmed =>
      match RunService.persist world.store draft unconfirmed with
      | .ok (_, store) => some { world with store := store }
      | .error _ => none
  | .cancelRun runId requestedBy eventId =>
      match RunService.cancel world.store runId requestedBy eventId world.clock with
      | .ok (_, store) => some { world with store := store }
      | .error _ => none
  | .spawn processId workerId settings =>
      (world.workers.insert?
        { processId := processId
          workerId := workerId
          settings := settings
          stage := .starting }).map fun workers => { world with workers := workers }
  | .crash processId =>
      some { world with workers := world.workers.delete fun worker => worker.processId = processId }
  | .worker processId action =>
      match world.workers.lookup processId with
      | none => none
      | some worker => work world worker action
  | .shell action => (shellStore world action).map fun store => { world with store := store }
  | .authenticate logins users =>
      some { world with store := { world.store with logins := logins, users := users } }

end World

/-- The deployment as a transition system. -/
def deployment : System World Action where
  init world := world = .start
  step := World.step

/-- What a list of actions leads to from the start is reachable. -/
theorem reachable_of_exec {actions : List Action} {world : World}
    (done : deployment.exec .start actions = some world) : deployment.Reachable world :=
  ⟨.start, rfl, System.leads_of_exec done⟩

end OpsComposer.Cluster
