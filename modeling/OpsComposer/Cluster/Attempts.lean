import OpsComposer.Cluster.Executors

/-!
# Attempts to execute a run

`execute_run` of `worker.py` between the claim of a run and its end, with its
two `try` blocks and their handlers.  An `Attempt` is one call of it by a worker
process; a `Fleet` is a deployment together with the attempts under way.  The
steps of an attempt are the ones the function takes in the order it takes them,
and an exception may be raised wherever the function awaits something:

* in the first `try` an expected exception leads to the handler that rejects or
  interrupts the run, any other one out of the function;
* in the second `try` every exception leads to the handler that fails or
  interrupts the run;
* everywhere else an exception leads out of the function, into the handler of
  the main loop.

A write may commit and yet raise, when the connection is lost before the answer
(`consumeLost`, `markRunningLost`).

Every step of a fleet is a run of the deployment below it, so what holds of the
runs of the deployment holds of its attempts.
-/

set_option autoImplicit false

namespace OpsComposer.Cluster

open Domain Foundations Repositories Services

/-! ## One call of `execute_run` -/

/-- Where a call stands. -/
inductive Point where
  /-- In the first `try`, before `consume_secret_inputs`. -/
  | loading
  /-- In the first `try`, after it. -/
  | preparing
  /-- In the handler of the first `try`, before its event. -/
  | rejecting (error : Raised)
  /-- In the handler of the first `try`, before its `finish`. -/
  | rejected (error : Raised)
  /-- In the second `try`, before `run_started` is set. -/
  | launching
  /-- In the second `try`, after it. -/
  | running
  /-- In the handler of the second `try`, before its event. -/
  | failing (runStarted : Bool)
  /-- In the handler of the second `try`, before its `finish`. -/
  | failed (runStarted : Bool)
  /-- After the second `try`. -/
  | reporting
  deriving DecidableEq

/-- The flag `run_started`. -/
def Point.runStarted : Point → Bool
  | .running | .reporting => true
  | .failing started | .failed started => started
  | _ => false

/-- A call of `execute_run` that is under way. -/
structure Attempt where
  processId : Uuid
  /-- The run as it was claimed. -/
  run : Run
  point : Point := .loading
  secretInputsIrrecoverable : Bool := false

namespace Attempt

/-- `run.operation_spec.get("secretParameterNames", [])`, when it is a list of texts. -/
def secretNames (operationSpec : Dict) : Option (List String) :=
  match operationSpec.get? "secretParameterNames" with
  | none => some []
  | some (.arr items) => items.mapM fun item => match item with
      | .str name => some name
      | _ => none
  | some _ => none

/-- The message of a run that is interrupted after the consumption. -/
def interruptedMessage : String := "run interrupted after consuming sensitive parameters"

/-- How the handler of the first `try` ends the run. -/
def rejection (irrecoverable : Bool) (error : Raised) : RunRepository.Outcome :=
  if irrecoverable then
    { status := .interrupted
      failureCode := some "SECRET_INPUTS_CONSUMED"
      failureMessage := some interruptedMessage }
  else
    { status := .rejected
      failureCode := some error.failureCode
      failureMessage := some error.failureMessage }

/-- The event of the handler of the first `try`. -/
def rejectionEvent (irrecoverable : Bool) (error : Raised) : WorkerCoordinator.EventDraft where
  eventType := if irrecoverable then "run_interrupted" else "run_rejected"
  eventData :=
    [("code", .str (if irrecoverable then "SECRET_INPUTS_CONSUMED" else error.failureCode)),
      ("message", .str (if irrecoverable then interruptedMessage else error.failureMessage))]

/-- How the handler of the second `try` ends the run. -/
def failure (interrupted : Bool) : RunRepository.Outcome :=
  if interrupted then
    { status := .interrupted
      failureCode := some "SECRET_INPUTS_CONSUMED"
      failureMessage := some interruptedMessage }
  else
    { status := .failed
      failureCode := some "RUNNER_ERROR"
      failureMessage := some "runner execution failed" }

/-- The event of the handler of the second `try`. -/
def failureEvent (interrupted : Bool) : WorkerCoordinator.EventDraft where
  eventType := if interrupted then "run_interrupted" else "runner_error"
  eventData :=
    [("message", .str (if interrupted then interruptedMessage else "runner execution failed"))]

/-- What the executor and the accumulators report at the end. -/
structure Report where
  canceled : Bool
  timedOut : Bool
  successCount : Nat
  failureCount : Nat
  returnCode : Option Int

/-- The `final_status`. -/
def Report.finalStatus (report : Report) : RunStatus :=
  if report.canceled then .canceled
  else if report.timedOut then .timedOut
  else if 0 < report.failureCount ∧ 0 < report.successCount then .partly
  else if 0 < report.failureCount ∨ report.returnCode.getD 0 ≠ 0 then .failed
  else .succeeded

/-- What `finish` is given. -/
def Report.outcome (report : Report) : RunRepository.Outcome where
  status := report.finalStatus
  returnCode := report.returnCode
  summary :=
    [("total", .num (report.successCount + report.failureCount)),
      ("succeeded", .num report.successCount), ("failed", .num report.failureCount)]

end Attempt

/-! ## Fleets -/

/-- A deployment with the calls of `execute_run` under way, and what has
happened so far. -/
structure Fleet where
  world : World
  attempts : Table Attempt.processId
  /-- The runs whose consumption has committed. -/
  consumed : List Uuid
  /-- The runs whose values a call of `consume_secret_inputs` has returned. -/
  returned : List Uuid
  /-- The runs that have been `RUNNING`. -/
  launched : List Uuid

/-- What an attempt does next. -/
inductive AttemptAction where
  | consume
  | consumeLost
  | prepared
  | markRunning
  | markRunningLost
  | monitorHeartbeat
  | appendEvent (eventId : Uuid) (draft : WorkerCoordinator.EventDraft)
  | executed
  | finishTarget (runTargetId hostId : Uuid) (result : RunRepository.TargetResult)
  /-- The event of the handler that has been entered. -/
  | handle (eventId : Uuid)
  /-- The last write, of a handler or of the report. -/
  | finish (eventId : Uuid) (report : Attempt.Report)
  | raise (error : Raised)

/-- One step of a fleet. -/
inductive FleetAction where
  | environment (action : Action)
  | attempt (processId : Uuid) (action : AttemptAction)

namespace Fleet

/-- No attempt has begun. -/
def start : Fleet where
  world := .start
  attempts := .empty
  consumed := []
  returned := []
  launched := []

/-- The fleet after a step of the deployment, with what can be seen of it. -/
def onward (fleet : Fleet) (world : World) (attempts : Table Attempt.processId) : Fleet :=
  { fleet with
    world := world
    attempts := attempts
    launched := (world.store.runs.select fun run => run.status = .running).map Run.runId ++
      fleet.launched }

/-- The attempt moves on to a point. -/
def reach (fleet : Fleet) (attempt : Attempt) (world : World) (point : Point) : Fleet :=
  fleet.onward world (fleet.attempts.put { attempt with point := point })

/-- The call is over. -/
def leave (fleet : Fleet) (attempt : Attempt) (world : World) : Fleet :=
  fleet.onward world (fleet.attempts.delete fun other => other.processId = attempt.processId)

/-- One write of the worker process. -/
def write (fleet : Fleet) (attempt : Attempt) (action : WorkerAction) : Option World :=
  fleet.world.step (.worker attempt.processId action)

/-- An exception is raised. -/
def raised (fleet : Fleet) (attempt : Attempt) (error : Raised) : Option Fleet :=
  match attempt.point with
  | .loading | .preparing =>
      if error.expected then some (fleet.reach attempt fleet.world (.rejecting error))
      else (fleet.write attempt .fail).map (fleet.leave attempt)
  | .launching => some (fleet.reach attempt fleet.world (.failing false))
  | .running => some (fleet.reach attempt fleet.world (.failing true))
  | _ => (fleet.write attempt .fail).map (fleet.leave attempt)

/-- The commit of a consumption goes down in the history. -/
def consumes (fleet : Fleet) (attempt : Attempt) (answered : Bool) : Fleet :=
  { fleet with
    consumed := attempt.run.runId :: fleet.consumed
    returned := if answered then attempt.run.runId :: fleet.returned else fleet.returned }

/-- The end of the consumption: the answer arrives, or the connection is lost. -/
def consumption (fleet : Fleet) (attempt : Attempt) (answered : Bool) : Option Fleet :=
  (fleet.write attempt .consumeSecrets).bind fun world =>
    if answered then
      some ((fleet.consumes attempt true).reach
        { attempt with secretInputsIrrecoverable := true } world .preparing)
    else ((fleet.consumes attempt false).onward world fleet.attempts).raised attempt .exception

/-- `consume_secret_inputs`, where names are declared. -/
def consume (decryptJson : Uuid → List UInt8 → Nat → Option Dict) (fleet : Fleet)
    (attempt : Attempt) (answered : Bool) : Option Fleet :=
  match Attempt.secretNames attempt.run.operationSpec with
  | none => fleet.raised attempt .valueError
  | some [] => some (fleet.reach attempt fleet.world .preparing)
  | some names =>
      match RunService.consumeSecretInputs decryptJson fleet.world.store attempt.run.runId names with
      | .ok _ => fleet.consumption attempt answered
      | .error (.secretParametersRequired fields) =>
          fleet.raised { attempt with secretInputsIrrecoverable := true }
            (.secretParametersRequired fields)
      | .error error => fleet.raised attempt error

/-- One step of a call, by the point it has reached. -/
def advance (decryptJson : Uuid → List UInt8 → Nat → Option Dict) (fleet : Fleet)
    (attempt : Attempt) (action : AttemptAction) : Option Fleet :=
  match attempt.point, action with
  | _, .raise error => fleet.raised attempt error
  | .loading, .consume => fleet.consume decryptJson attempt true
  | .loading, .consumeLost => fleet.consume decryptJson attempt false
  | .preparing, .prepared => some (fleet.reach attempt fleet.world .launching)
  | .launching, .markRunning =>
      (fleet.write attempt .markRunning).map fun world => fleet.reach attempt world .running
  | .launching, .markRunningLost =>
      (fleet.write attempt .markRunning).bind fun world =>
        (fleet.onward world fleet.attempts).raised attempt .exception
  | .running, .monitorHeartbeat =>
      (fleet.write attempt .monitorHeartbeat).map fun world => fleet.reach attempt world .running
  | .running, .appendEvent eventId draft =>
      (fleet.write attempt (.appendEvent eventId draft)).map fun world =>
        fleet.reach attempt world .running
  | .running, .executed => some (fleet.reach attempt fleet.world .reporting)
  | .reporting, .finishTarget runTargetId hostId result =>
      (fleet.write attempt (.finishTarget runTargetId hostId result)).map fun world =>
        fleet.reach attempt world .reporting
  | .reporting, .finish eventId report =>
      (fleet.write attempt (.finish eventId report.outcome)).map (fleet.leave attempt)
  | .rejecting error, .handle eventId =>
      (fleet.write attempt (.appendEvent eventId
        (Attempt.rejectionEvent attempt.secretInputsIrrecoverable error))).map fun world =>
          fleet.reach attempt world (.rejected error)
  | .rejected error, .finish eventId _ =>
      (fleet.write attempt (.finish eventId
        (Attempt.rejection attempt.secretInputsIrrecoverable error))).map (fleet.leave attempt)
  | .failing runStarted, .handle eventId =>
      (fleet.write attempt (.appendEvent eventId
        (Attempt.failureEvent (attempt.secretInputsIrrecoverable && !runStarted)))).map fun world =>
          fleet.reach attempt world (.failed runStarted)
  | .failed runStarted, .finish eventId _ =>
      (fleet.write attempt (.finish eventId
        (Attempt.failure (attempt.secretInputsIrrecoverable && !runStarted)))).map
          (fleet.leave attempt)
  | _, _ => none

/-- The attempts after a step of the environment: a process that has claimed a
run begins to execute it, and one that has died does not go on. -/
def enter (fleet : Fleet) (action : Action) (world : World) : Table Attempt.processId :=
  match action with
  | .worker processId _ =>
      match (world.workers.lookup processId).map WorkerProcess.stage with
      | some (.executing _ runId) =>
          match world.store.runs.lookup runId with
          | some run => fleet.attempts.put { processId := processId, run := run }
          | none => fleet.attempts
      | _ => fleet.attempts
  | .crash processId => fleet.attempts.delete fun attempt => attempt.processId = processId
  | _ => fleet.attempts

/-- A process that executes a run is moved by its attempt alone. -/
def attempted (fleet : Fleet) : Action → Bool
  | .worker processId _ => (fleet.attempts.lookup processId).isSome
  | _ => false

/-- One step of the environment or of an attempt, if it can be made. -/
def step (decryptJson : Uuid → List UInt8 → Nat → Option Dict) (fleet : Fleet) :
    FleetAction → Option Fleet
  | .environment action =>
      if fleet.attempted action then none
      else (fleet.world.step action).map fun world => fleet.onward world (fleet.enter action world)
  | .attempt processId action =>
      (fleet.attempts.lookup processId).bind fun attempt => fleet.advance decryptJson attempt action

end Fleet

/-- The deployment with its attempts; `decryptJson` opens the envelopes. -/
def fleets (decryptJson : Uuid → List UInt8 → Nat → Option Dict) : System Fleet FleetAction where
  init fleet := fleet = .start
  step := Fleet.step decryptJson

end OpsComposer.Cluster
