import OpsComposer.Foundations.Casefold
import OpsComposer.Services.WorkerCoordinator

/-!
# What a worker makes of the events of a run

`execute_run` of `worker.py`: every event that the runner has posted is folded
into the accumulator of its host and appended to the event log of the run, and
in the end the accumulators, the return code and the status of the runner are
made into the results of the targets and of the run.

`accumulators` is a dict by the name of the host; a dict is the list of its
values in the order of insertion.
-/

set_option autoImplicit false

namespace OpsComposer.Services

open Domain Foundations Repositories

namespace Worker

/-- What the loop reads of an event that has been sanitised: its type, its output,
and of its data the host, the task, whether the result has changed anything, and
the data as they are stored. -/
structure RunnerEvent where
  event : String := "runner_event"
  stdout : String := ""
  host : Option String := none
  task : Option String := none
  changed : Bool := false
  eventData : Dict := []

/-- What is collected about one host while its run goes on. -/
structure TargetAccumulator where
  target : RunTarget
  chunks : List String := []
  size : Nat := 0
  truncated : Bool := false
  status : RunTargetStatus := .running
  changed : Nat := 0
  failed : Nat := 0
  unreachable : Nat := 0

/-- The first `limit` bytes of a text, decoded with replacement: the whole
characters that fit, and one replacement character for what is left of one that
is cut. -/
def clipHead : Nat → List Char → List Char
  | _, [] => []
  | limit, c :: rest =>
      if c.utf8Size ≤ limit then c :: clipHead (limit - c.utf8Size) rest
      else if limit = 0 then []
      else ['\uFFFD']

/-- `add_output`: what goes beyond the limit is cut off. -/
def TargetAccumulator.addOutput (accumulator : TargetAccumulator) (output : String)
    (limit : Nat) : TargetAccumulator :=
  if accumulator.size + output.utf8ByteSize ≤ limit then
    { accumulator with
      chunks := accumulator.chunks ++ [output]
      size := accumulator.size + output.utf8ByteSize }
  else if limit - accumulator.size = 0 then { accumulator with truncated := true }
  else
    { accumulator with
      chunks := accumulator.chunks ++
        [String.ofList (clipHead (limit - accumulator.size) output.toList)]
      size := limit
      truncated := true }

/-- `per_host_limit`. -/
def perHostLimit (maxRunOutputBytes targets : Nat) : Nat :=
  min (1024 * 1024) (max (64 * 1024) (maxRunOutputBytes / max 1 targets))

/-! ## The loop -/

/-- `accumulators[target.host_name] = TargetAccumulator(target=target)`. -/
def setAccumulator (accumulators : List TargetAccumulator) (target : RunTarget) :
    List TargetAccumulator :=
  if ∃ accumulator ∈ accumulators, accumulator.target.hostName = target.hostName then
    accumulators.map fun accumulator =>
      if accumulator.target.hostName = target.hostName then { target := target } else accumulator
  else accumulators ++ [{ target := target }]

/-- The dict of accumulators of a list of targets. -/
def accumulatorsOf (targets : List RunTarget) : List TargetAccumulator :=
  targets.foldl setAccumulator []

/-- What an event does to the accumulator of its host. -/
def accumulate (limit : Nat) (event : RunnerEvent) (accumulator : TargetAccumulator) :
    TargetAccumulator :=
  let accumulator :=
    if event.stdout ≠ "" then accumulator.addOutput (event.stdout ++ "\n") limit else accumulator
  if event.event = "runner_on_ok" then
    { accumulator with
      status := .succeeded
      changed := accumulator.changed + if event.changed then 1 else 0 }
  else if event.event = "runner_on_failed" then
    { accumulator with status := .failed, failed := accumulator.failed + 1 }
  else if event.event = "runner_on_unreachable" then
    { accumulator with status := .unreachable, unreachable := accumulator.unreachable + 1 }
  else if event.event = "runner_on_skipped" then { accumulator with status := .skipped }
  else accumulator

/-- The event is one of the host of an accumulator. -/
abbrev Concerns (event : RunnerEvent) (target : RunTarget) : Prop :=
  event.host = some target.hostName

/-- The accumulators with one more event. -/
def foldEvent (limit : Nat) (accumulators : List TargetAccumulator) (event : RunnerEvent) :
    List TargetAccumulator :=
  accumulators.map fun accumulator =>
    if Concerns event accumulator.target then accumulate limit event accumulator else accumulator

/-- The event as it is appended to the log of the run. -/
def draftOf (accumulators : List TargetAccumulator) (event : RunnerEvent) :
    WorkerCoordinator.EventDraft where
  eventType := event.event
  stdout := if event.stdout = "" then none else some event.stdout
  task := event.task
  eventData := event.eventData
  runTargetId :=
    (accumulators.find? fun accumulator => Concerns event accumulator.target).map
      fun accumulator => accumulator.target.runTargetId

/-! ## The results -/

/-- `status in {RunTargetStatus.SUCCEEDED, RunTargetStatus.SKIPPED}`. -/
def successful : RunTargetStatus → Bool
  | .succeeded | .skipped => true
  | _ => false

/-- The status that a target has in the end. -/
def settle (cancel : Bool) (rc : Option Int) (accumulator : TargetAccumulator) :
    TargetAccumulator :=
  if cancel then { accumulator with status := .canceled }
  else if accumulator.status = .running then
    { accumulator with status := if rc = some 0 then .succeeded else .failed }
  else accumulator

/-- The columns that `finish_target` is given. -/
def targetResult (rc : Option Int) (accumulator : TargetAccumulator) :
    RunRepository.TargetResult where
  status := accumulator.status
  returnCode := rc
  stdout := String.join accumulator.chunks
  outputTruncated := accumulator.truncated
  changedCount := accumulator.changed
  failedCount := accumulator.failed
  unreachableCount := accumulator.unreachable

/-- `runner_status.casefold() in {"timeout", "timed_out"}`. -/
def TimedOut (runnerStatus : Text) : Prop :=
  runnerStatus.casefold = text "timeout" ∨ runnerStatus.casefold = text "timed_out"

instance (runnerStatus : Text) : Decidable (TimedOut runnerStatus) :=
  inferInstanceAs (Decidable (_ ∨ _))

/-- The status that a run ends with. -/
def finalStatus (cancel : Bool) (runnerStatus : Text) (rc : Option Int)
    (successCount failureCount : Nat) : RunStatus :=
  if cancel then .canceled
  else if TimedOut runnerStatus then .timedOut
  else if failureCount ≠ 0 ∧ successCount ≠ 0 then .partly
  else if failureCount ≠ 0 ∨ (rc ≠ some 0 ∧ rc ≠ none) then .failed
  else .succeeded

/-- The calls of `finish_target`, in order, and what `finish` is given. -/
structure Aggregation where
  results : List (RunTarget × RunRepository.TargetResult)
  successCount : Nat
  failureCount : Nat
  outcome : RunRepository.Outcome

/-- The results of the hosts, and the status that follows. -/
def aggregate (cancel : Bool) (rc : Option Int) (runnerStatus : Text)
    (accumulators : List TargetAccumulator) : Aggregation :=
  let settled := accumulators.map (settle cancel rc)
  let successCount := settled.countP fun accumulator => successful accumulator.status
  let failureCount := settled.countP fun accumulator => !successful accumulator.status
  { results := settled.map fun accumulator => (accumulator.target, targetResult rc accumulator)
    successCount := successCount
    failureCount := failureCount
    outcome :=
      { status := finalStatus cancel runnerStatus rc successCount failureCount
        returnCode := rc
        summary :=
          [("total", .num accumulators.length), ("succeeded", .num successCount),
            ("failed", .num failureCount)] } }

/-- `execute_run` from the first event to the results, if nothing is raised. -/
def executeRun (limit : Nat) (targets : List RunTarget) (events : List RunnerEvent)
    (cancel : Bool) (rc : Option Int) (runnerStatus : Text) : Aggregation :=
  aggregate cancel rc runnerStatus (events.foldl (foldEvent limit) (accumulatorsOf targets))

end Worker

end OpsComposer.Services
