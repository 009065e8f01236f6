import OpsComposer.Foundations.CountedLog
import OpsComposer.Foundations.Transition
import OpsComposer.Services.Runs
import OpsComposer.Services.WorkerCoordinator

/-!
# The event log, statement by statement

Here a transaction is not one step.  It is in flight, with the statements that it
still has to issue, and any other transaction and any reader may come between two
of them.  Only the tables `runs` and `run_events` matter: a `Database` has their
committed rows and what the transactions in flight have written, and an `UPDATE`
of a run holds the lock of its row until the transaction commits or rolls back.

The readers are clients that call `events_after` again and again, each from the
last sequence number that it was given, and the event streams of `api/runs.py`,
which look at the status of the run after every batch.
-/

set_option autoImplicit false

namespace OpsComposer.EventLog

open Domain Foundations Repositories Services

theorem runId_bump (run : Run) :
    ({ run with nextEventSequence := run.nextEventSequence + 1 } : Run).runId = run.runId := rfl

/-- `next_event_sequence` of `runs` numbers the rows of `run_events`. -/
def runNumbering : Numbering Uuid Run Uuid RunEvent where
  rowKey := Run.runId
  counter := Run.nextEventSequence
  bump run := { run with nextEventSequence := run.nextEventSequence + 1 }
  entryKey := RunEvent.runEventId
  owner := RunEvent.runId
  number := RunEvent.sequence
  rowKey_bump := runId_bump
  counter_bump _ := rfl

/-- The runs and their events, numbered by the counter of the run. -/
abbrev RunDatabase := Database runNumbering Uuid

/-! ## Statements and transactions -/

/-- The statements that update the row of a run. -/
inductive RunWrite where
  | requestCancel (now : Nat)
  | claim (workerId : String) (now : Nat)
  | markRunning (now : Nat)
  | finish (workerId : String) (outcome : RunRepository.Outcome) (now : Nat)
  | interrupt (now : Nat)

/-- The new version of a row that meets the `WHERE` clause. -/
def RunWrite.row? : RunWrite → Run → Option Run
  | .requestCancel now, run =>
      if run.status.cancelable then some (RunRepository.canceledBy now run) else none
  | .claim workerId now, run =>
      if run.status = .queued then some (RunRepository.claimedBy workerId now run) else none
  | .markRunning now, run =>
      if run.status = .preparing then some { run with status := .running, updatedAt := now }
      else none
  | .finish workerId outcome now, run =>
      if RunRepository.OwnedBy workerId run then some (RunRepository.finishedWith outcome now run)
      else none
  | .interrupt now, run =>
      if run.status.active then some (RunRepository.interruptedBy now run) else none

/-- What a unit of work does to a run and to its events. -/
inductive Statement where
  | insertRun (draft : RunService.Draft)
  /-- `required`: the service raises when no row is updated. -/
  | updateRun (runId : Uuid) (write : RunWrite) (required : Bool)
  /-- `append_event`: its `UPDATE … RETURNING`, and then its `INSERT`. -/
  | appendEvent (event : RunEvent)
  | insertEvent (event : RunEvent)

/-- The transactions that write `runs` or `run_events`. -/
inductive Operation where
  | create (draft : RunService.Draft)
  | cancel (runId eventId : Uuid) (now : Nat)
  | claim (runId : Uuid) (workerId : String) (now : Nat)
  | markRunning (runId : Uuid) (now : Nat)
  | appendEvent (settings : WorkerSettings) (runId eventId : Uuid)
      (draft : WorkerCoordinator.EventDraft) (now : Nat)
  | finish (runId : Uuid) (workerId : String) (eventId : Uuid) (outcome : RunRepository.Outcome)
      (now : Nat)
  | recoverStale (runIds : List Uuid) (now : Nat)

/-- The statements of a unit of work, in the order of the source. -/
def Operation.statements : Operation → List Statement
  | .create draft => [.insertRun draft, .appendEvent draft.queuedEvent]
  | .cancel runId eventId now =>
      [.updateRun runId (.requestCancel now) true,
        .appendEvent (RunService.cancelEvent runId eventId now)]
  | .claim runId workerId now => [.updateRun runId (.claim workerId now) false]
  | .markRunning runId now => [.updateRun runId (.markRunning now) false]
  | .appendEvent settings runId eventId draft now =>
      [.appendEvent (WorkerCoordinator.draftedEvent settings runId eventId draft now)]
  | .finish runId workerId eventId outcome now =>
      [.updateRun runId (.finish workerId outcome now) true,
        .appendEvent (WorkerCoordinator.finishedEvent runId eventId outcome now)]
  | .recoverStale runIds now => runIds.map fun runId => .updateRun runId (.interrupt now) false

/-- Issue one statement; what it leaves to be done comes with the database.  A
statement that waits for a lock, or raises, is refused. -/
def Statement.issue (database : RunDatabase) (txId : Uuid) :
    Statement → Option (RunDatabase × List Statement)
  | .insertRun draft =>
      match database.transaction? txId with
      | none => none
      | some tx =>
          if (database.visible tx draft.runId).isNone = true then
            (database.write? txId draft.run).map fun written => (written, [])
          else none
  | .updateRun runId write required =>
      match database.transaction? txId with
      | none => none
      | some tx =>
          match (database.visible tx runId).bind write.row? with
          | none => if required then none else some (database, [])
          | some row => (database.write? txId row).map fun written => (written, [])
  | .appendEvent event =>
      match database.reserve? txId event.runId with
      | none => none
      | some reserved =>
          match (reserved.transaction? txId).bind Transaction.reserved with
          | none => none
          | some (_, sequence) =>
              some (reserved, [.insertEvent { event with sequence := sequence }])
  | .insertEvent event => (database.insert? txId event).map fun inserted => (inserted, [])

/-- A transaction in flight with the statements that it still has to issue. -/
structure Program where
  txId : Uuid
  todo : List Statement

/-! ## Readers -/

/-- A client that calls `events_after` from the last sequence number it was given. -/
structure Replay where
  replayId : Uuid
  runId : Uuid
  reader : Reader RunEvent

/-- The committed rows at an instant. -/
structure Snapshot where
  runs : Table Run.runId
  events : Table RunEvent.runEventId

/-- Where a stream stands in its loop. -/
inductive StreamStage where
  /-- Before it reads the next events. -/
  | polling
  /-- Before it reads the status; `quiet`: it has just got no events. -/
  | checking (quiet : Bool)
  /-- Ended on a terminal status. -/
  | ended
  /-- Ended without one: the client is gone, or the run was not found. -/
  | gone
  deriving DecidableEq

/-- An event stream; `seen` is what was committed when it last read events. -/
structure Stream where
  streamId : Uuid
  runId : Uuid
  reader : Reader RunEvent
  stage : StreamStage
  seen : Snapshot

/-- The cursor that a stream starts with. -/
def startCursor (after : Nat) (lastEventId : Option Int) : Nat :=
  match lastEventId with
  | none => after
  | some last => max after last.toNat

/-! ## The world -/

/-- The database, the units of work that run on it, and those who read the events. -/
structure EventWorld where
  database : RunDatabase
  programs : Table Program.txId
  replays : Table Replay.replayId
  streams : Table Stream.streamId
  /-- What was committed after each commit, the first one first. -/
  history : List Snapshot

/-- What can happen next: to a unit of work, to a paged replay or to a stream. -/
inductive EventAction where
  | begin (txId : Uuid) (operation : Operation)
  | proceed (txId : Uuid)
  | commit (txId : Uuid)
  | rollback (txId : Uuid)
  | openReplay (replayId runId : Uuid) (start : Nat)
  | read (replayId : Uuid) (limit : Nat)
  | openStream (streamId runId : Uuid) (after : Nat) (lastEventId : Option Int)
  | pollEvents (streamId : Uuid)
  | pollStatus (streamId : Uuid)
  | disconnect (streamId : Uuid)

namespace EventWorld

/-- No runs, and nobody who reads them. -/
def start : EventWorld where
  database := .empty
  programs := .empty
  replays := .empty
  streams := .empty
  history := []

/-- What a new transaction that only reads sees. -/
def snapshot (world : EventWorld) : Snapshot where
  runs := world.database.rows
  events := world.database.entries

/-- The store that the reading transactions of the run service are run on. -/
def store (world : EventWorld) : Store :=
  { Store.empty with runs := world.database.rows, events := world.database.entries }

/-- One round of the loop of `generate`: its read of the events. -/
def pollEvents (world : EventWorld) (stream : Stream) : Stream :=
  match RunService.eventsAfter world.store stream.runId stream.reader.cursor with
  | .error _ => { stream with stage := .gone }
  | .ok events =>
      { stream with
        reader := stream.reader.deliver RunEvent.sequence events
        stage := .checking events.isEmpty
        seen := world.snapshot }

/-- The other half of the round: its read of the status. -/
def pollStatus (world : EventWorld) (stream : Stream) (quiet : Bool) : Stream :=
  match RunService.get world.store stream.runId with
  | .error _ => { stream with stage := .gone }
  | .ok run => { stream with stage := if run.status.terminal && quiet then .ended else .polling }

/-- One step of a unit of work on the runs, of a replay or of a stream. It is undefined
where the action cannot be taken: on a row that another transaction holds, or after the end
of a program. -/
def step (world : EventWorld) : EventAction → Option EventWorld
  | .begin txId operation =>
      (world.database.begin? txId).bind fun database =>
        (world.programs.insert? { txId := txId, todo := operation.statements }).map fun programs =>
          { world with database := database, programs := programs }
  | .proceed txId =>
      match world.programs.lookup txId with
      | some { txId := _, todo := statement :: rest } =>
          (statement.issue world.database txId).map fun issued =>
            { world with
              database := issued.1
              programs := world.programs.put { txId := txId, todo := issued.2 ++ rest } }
      | _ => none
  | .commit txId =>
      match world.programs.lookup txId with
      | some { txId := _, todo := [] } =>
          (world.database.commit? txId).map fun database =>
            { world with
              database := database
              programs := world.programs.delete fun program => program.txId = txId
              history := world.history ++ [{ runs := database.rows, events := database.entries }] }
      | _ => none
  | .rollback txId =>
      some { world with
        database := world.database.rollback txId
        programs := world.programs.delete fun program => program.txId = txId }
  | .openReplay replayId runId start =>
      (world.replays.insert?
        { replayId := replayId, runId := runId, reader := .at_ start }).map fun replays =>
          { world with replays := replays }
  | .read replayId limit =>
      match world.replays.lookup replayId with
      | none => none
      | some replay =>
          if 1 ≤ limit then
            match RunService.eventsAfter world.store replay.runId replay.reader.cursor limit with
            | .error _ => some world
            | .ok events => some { world with
                replays := world.replays.put { replay with
                  reader := replay.reader.deliver RunEvent.sequence events } }
          else none
  | .openStream streamId runId after lastEventId =>
      match RunService.get world.store runId with
      | .error _ => some world
      | .ok _ =>
          (world.streams.insert?
            { streamId := streamId
              runId := runId
              reader := .at_ (startCursor after lastEventId)
              stage := .polling
              seen := world.snapshot }).map fun streams => { world with streams := streams }
  | .pollEvents streamId =>
      match world.streams.lookup streamId with
      | none => none
      | some stream =>
          if stream.stage = .polling then
            some { world with streams := world.streams.put (pollEvents world stream) }
          else none
  | .pollStatus streamId =>
      match world.streams.lookup streamId with
      | none => none
      | some stream =>
          match stream.stage with
          | .checking quiet =>
              some { world with streams := world.streams.put (pollStatus world stream quiet) }
          | _ => none
  | .disconnect streamId =>
      match world.streams.lookup streamId with
      | none => none
      | some stream =>
          if stream.stage = .polling then
            some { world with streams := world.streams.put { stream with stage := .gone } }
          else none

end EventWorld

/-- The two tables under transactions and readers. -/
def eventLog : System EventWorld EventAction where
  init world := world = .start
  step := EventWorld.step

end OpsComposer.EventLog
