import OpsComposer.Repositories.Runs

/-!
# The worker's transactions

`WorkerCoordinator` of `services/runs.py`.  Every method is one unit of work:
a function from the committed store to the store it commits, or `none` when it
raises and rolls back.  The reading of the clock and the fresh identifiers are
arguments.
-/

set_option autoImplicit false

namespace OpsComposer.Services

open Domain Foundations Repositories

/-- `timedelta(seconds=n)`. -/
def seconds (n : Nat) : Nat := n * 1000000

/-- The settings that the worker reads, within their validated bounds. -/
structure WorkerSettings where
  workerLeaseSeconds : Nat
  maxEventOutputBytes : Nat
  lease_ge : 5 ≤ workerLeaseSeconds
  output_ge : 1024 ≤ maxEventOutputBytes

namespace WorkerSettings

/-- The settings of a deployment that sets none. -/
def default : WorkerSettings where
  workerLeaseSeconds := 30
  maxEventOutputBytes := 64 * 1024
  lease_ge := by decide
  output_ge := by decide

/-- The expiry that a heartbeat at `now` writes. -/
def leaseUntil (settings : WorkerSettings) (now : Nat) : Nat :=
  now + seconds settings.workerLeaseSeconds

theorem lt_leaseUntil (settings : WorkerSettings) (now : Nat) : now < settings.leaseUntil now := by
  have lower := settings.lease_ge
  simp only [leaseUntil, seconds]
  omega

end WorkerSettings

/-- The last `limit` bytes of a text, decoded with replacement: the whole
characters that fit, after one replacement character for each byte of a
character that is cut.  The text is given last character first. -/
def clipTail (limit : Nat) : List Char → List Char
  | [] => []
  | c :: before =>
      if c.utf8Size ≤ limit then clipTail (limit - c.utf8Size) before ++ [c]
      else List.replicate limit '\uFFFD'

/-- `stdout` as `append_event` cuts it. -/
def clipOutput (limit : Nat) (stdout : String) : String :=
  if limit < stdout.utf8ByteSize then String.ofList (clipTail limit stdout.toList.reverse)
  else stdout

/-- `stdout` as `append_event` stores it: the model of the event strips what is left. -/
def storedOutput (limit : Nat) (stdout : String) : String := stripped (clipOutput limit stdout)

namespace WorkerCoordinator

/-- `heartbeat`. -/
def heartbeat (settings : WorkerSettings) (workerId : String) (store : Store)
    (runId : Option Uuid) (now : Nat) : Store :=
  RunRepository.heartbeat store workerId runId now (settings.leaseUntil now)

/-- `recover_stale`. -/
def recoverStale (workerId : String) (store : Store) (now : Nat) : Store :=
  let recovered := RunRepository.recoverStale store now
  if recovered.1 = 0 then recovered.2
  else recovered.2.record { action := .staleRunsRecovered, workerId := some workerId }

/-- Heartbeat, claim and heartbeat again in one transaction; a collision rolls
the transaction back and leaves one audit row. -/
def claim (settings : WorkerSettings) (workerId : String) (store : Store) (now : Nat)
    (skipped : List Uuid) : Option Run × Store :=
  match RunRepository.claimNext (heartbeat settings workerId store none now) workerId now
    (settings.leaseUntil now) skipped with
  | .ok none => (none, heartbeat settings workerId store none now)
  | .ok (some (run, claimed)) =>
      (some run,
        (heartbeat settings workerId claimed (some run.runId) now).record
          { action := .runClaimed, workerId := some workerId, runId := some run.runId })
  | .error .claimCollision =>
      (none, store.record { action := .hostLockCollision, workerId := some workerId })

/-- `mark_running`. -/
def markRunning (workerId : String) (store : Store) (runId : Uuid) (now : Nat) : Store :=
  (RunRepository.markRunning store runId now).record
    { action := .runStarted, workerId := some workerId, runId := some runId }

/-- The event that a worker appends, before it gets its sequence number. -/
structure EventDraft where
  eventType : String
  stdout : Option String := none
  task : Option String := none
  eventData : Dict := []
  runTargetId : Option Uuid := none

/-- The `RunEvent(…)` that is appended; its texts are stripped, as in every domain model. -/
def draftedEvent (settings : WorkerSettings) (runId eventId : Uuid) (draft : EventDraft)
    (now : Nat) : RunEvent where
  runEventId := eventId
  runId := runId
  runTargetId := draft.runTargetId
  sequence := 1
  eventType := stripped draft.eventType
  task := draft.task.map stripped
  stdout := draft.stdout.map (storedOutput settings.maxEventOutputBytes)
  eventData := draft.eventData.stripped
  createdAt := now

/-- `append_event`. -/
def appendEvent (settings : WorkerSettings) (store : Store) (runId eventId : Uuid)
    (draft : EventDraft) (now : Nat) : Option Store :=
  (RunRepository.appendEvent store (draftedEvent settings runId eventId draft now)).map Prod.snd

/-- `finish_target`. -/
def finishTarget (workerId : String) (store : Store) (runId runTargetId hostId : Uuid)
    (result : RunRepository.TargetResult) (now : Nat) : Store :=
  (RunRepository.finishTarget store runTargetId result now).record
    { action := .hostCompleted
      workerId := some workerId
      runId := some runId
      resourceId := some hostId }

/-- The `run_finished` event. -/
def finishedEvent (runId eventId : Uuid) (outcome : RunRepository.Outcome) (now : Nat) :
    RunEvent where
  runEventId := eventId
  runId := runId
  sequence := 1
  eventType := "run_finished"
  eventData :=
    [("status", .str outcome.status.value),
      ("returnCode", (outcome.returnCode.map Json.num).getD .null),
      ("summary", .obj outcome.summary)]
  createdAt := now

/-- End a run that the worker owns, with its `run_finished` event; a worker that
no longer owns the run raises. -/
def finish (workerId : String) (store : Store) (runId eventId : Uuid)
    (outcome : RunRepository.Outcome) (now : Nat) : Option (Run × Store) :=
  match RunRepository.finish store runId workerId outcome now with
  | (none, _) => none
  | (some run, finished) =>
      (RunRepository.appendEvent finished (finishedEvent runId eventId outcome now)).map fun done =>
        (run, done.2.record
          { action := .runFinished outcome.status
            workerId := some workerId
            runId := some runId })

/-- What a claim does to the store, in one step: the lease of the worker and the
run locks of its id are refreshed, and a queued run moves to `PREPARING` with
locks on all its target hosts, none of which was under an unexpired lock. -/
structure Claims (settings : WorkerSettings) (workerId : String) (store : Store) (now : Nat)
    (old : Run) (store' : Store) : Prop where
  found : store.runs.lookup old.runId = some old
  queued : old.status = .queued
  runs : ∀ id, store'.runs.lookup id =
    if old.runId = id then some (RunRepository.claimedBy workerId now old)
    else store.runs.lookup id
  leases : ∀ id, store'.leases.lookup id =
    if workerId = id then
      some
        { workerId := workerId
          runId := some old.runId
          heartbeatAt := now
          expiresAt := settings.leaseUntil now }
    else store.leases.lookup id
  taken : ∀ host ∈ RunRepository.targetHosts store old.runId, store'.locks.lookup host =
    some (RunRepository.runLock old.runId workerId now (settings.leaseUntil now) host)
  kept : ∀ host ∉ RunRepository.targetHosts store old.runId, store'.locks.lookup host =
    (heartbeat settings workerId store none now).locks.lookup host
  free : ∀ host ∈ RunRepository.targetHosts store old.runId, ∀ lock,
    (heartbeat settings workerId store none now).locks.lookup host = some lock →
      lock.expiresAt ≤ now
  targets : store'.targets = store.targets
  events : store'.events = store.events
  secretInputs : store'.secretInputs = store.secretInputs
  shells : store'.shells = store.shells

variable {now : Nat} {store : Store} {workerId : String}

/-- **A claim that returns a run** does what `Claims` says. -/
theorem claim_claimed {settings : WorkerSettings} {skipped : List Uuid} {run : Run}
    (done : (claim settings workerId store now skipped).1 = some run) :
    ∃ old, run = RunRepository.claimedBy workerId now old ∧
      Claims settings workerId store now old (claim settings workerId store now skipped).2 := by
  unfold claim at done ⊢
  cases next : RunRepository.claimNext (heartbeat settings workerId store none now) workerId now
    (settings.leaseUntil now) skipped with
  | error collision =>
      rw [next] at done
      cases done
  | ok outcome =>
      cases outcome with
      | none =>
          rw [next] at done
          cases done
      | some answer =>
          obtain ⟨claimed, stored⟩ := answer
          obtain ⟨old, locks, found, queued, rfl, taken, kept, free, rfl⟩ :=
            RunRepository.claimNext_claimed next
          rw [next] at done
          obtain rfl := Option.some.inj done
          refine ⟨old, rfl, found, queued, ?_, ?_, ?_, ?_, free, rfl, rfl, rfl, rfl⟩
          · intro id
            simp only [Store.record_runs, heartbeat, RunRepository.heartbeat,
              Table.lookup_update_at]
            by_cases same : old.runId = id
            · subst same
              have present : store.runs.lookup old.runId = some old := found
              simp [present]
            · simp [same]
          · intro id
            simp only [Store.record_leases, heartbeat, RunRepository.heartbeat_leases]
            split <;> rfl
          · intro host member
            simp only [Store.record_locks, heartbeat, RunRepository.heartbeat_locks]
            rw [taken host member]
            simp [RunRepository.runLock]
          · intro host absent
            simp only [Store.record_locks, heartbeat, RunRepository.heartbeat_locks]
            rw [kept host absent, heartbeat, RunRepository.heartbeat_locks, Option.map_map]
            refine congrArg (fun f => Option.map f _) (funext fun lock => ?_)
            -- a refresh keeps the owner and the holder, so the second one changes nothing
            by_cases refreshed : RunRepository.RefreshedBy workerId lock
            · have again := RunRepository.refreshedBy_again refreshed (settings.leaseUntil now)
              simp only [Function.comp_apply, if_pos refreshed, if_pos again]
            · simp only [Function.comp_apply, if_neg refreshed]

/-- A claim that returns no run is at most a heartbeat. -/
theorem claim_idle {settings : WorkerSettings}
    {skipped : List Uuid} (done : (claim settings workerId store now skipped).1 = none) :
    (claim settings workerId store now skipped).2 = heartbeat settings workerId store none now ∨
      (claim settings workerId store now skipped).2 =
        store.record { action := .hostLockCollision, workerId := some workerId } := by
  unfold claim at done ⊢
  cases next : RunRepository.claimNext (heartbeat settings workerId store none now) workerId now
    (settings.leaseUntil now) skipped with
  | error collision => exact .inr rfl
  | ok outcome =>
      cases outcome with
      | none => exact .inl rfl
      | some answer =>
          rw [next] at done
          cases done

/-- What the end of a run does to the store, in one step. -/
structure Finishes (workerId : String) (store : Store) (runId eventId : Uuid)
    (outcome : RunRepository.Outcome) (now : Nat) (old : Run) (store' : Store) : Prop where
  found : store.runs.lookup runId = some old
  owned : RunRepository.OwnedBy workerId old
  eventFree : store.events.lookup eventId = none
  runs : ∀ id, store'.runs.lookup id =
    if runId = id then
      some { RunRepository.finishedWith outcome now old with
        nextEventSequence := old.nextEventSequence + 1 }
    else store.runs.lookup id
  targets : store'.targets = (RunRepository.finish store runId workerId outcome now).2.targets
  events : store'.events = store.events.put
    { finishedEvent runId eventId outcome now with sequence := old.nextEventSequence }
  secretInputs : store'.secretInputs = store.secretInputs
  leases : store'.leases = (RunRepository.finish store runId workerId outcome now).2.leases
  locks : store'.locks = (RunRepository.finish store runId workerId outcome now).2.locks
  shells : store'.shells = store.shells

/-- **Only the owner of a live run ends it**, and then as `Finishes` says. -/
theorem finish_spec {store' : Store} {runId eventId : Uuid} {outcome : RunRepository.Outcome}
    {run : Run} (done : finish workerId store runId eventId outcome now = some (run, store')) :
    ∃ old, Finishes workerId store runId eventId outcome now old store' := by
  unfold finish at done
  split at done
  · cases done
  rename_i row finished finishedBy
  obtain ⟨done, appended, same⟩ := Option.map_eq_some_iff.mp done
  obtain ⟨event, stored⟩ := done
  obtain ⟨numbered, present, rfl, eventFree, _, rfl⟩ := RunRepository.appendEvent_spec appended
  simp only [Prod.mk.injEq] at same
  obtain ⟨_, rfl⟩ := same
  obtain rfl : finished = (RunRepository.finish store runId workerId outcome now).2 := by
    rw [finishedBy]
  have answered : (RunRepository.finish store runId workerId outcome now).1 = some row := by
    rw [finishedBy]
  obtain ⟨old, ownedRow, rfl⟩ := Option.map_eq_some_iff.mp answered
  obtain ⟨found, owned⟩ := Option.filter_eq_some_iff.mp ownedRow
  simp only [decide_eq_true_eq] at owned
  have named := Table.key_of_lookup found
  have updated : ∀ id, (RunRepository.finish store runId workerId outcome now).2.runs.lookup id =
      if runId = id then some (RunRepository.finishedWith outcome now old)
      else store.runs.lookup id := by
    intro id
    simp only [RunRepository.finish, Table.lookup_update]
    by_cases same : runId = id
    · subst same
      simp [found, named, owned]
    · cases other : store.runs.lookup id with
      | none => simp [same]
      | some r => simp [Table.key_of_lookup other, same, Ne.symm same]
  have sequence : numbered = RunRepository.finishedWith outcome now old := by
    simp only [finishedEvent, updated, if_true, Option.some.injEq] at present
    exact present.symm
  refine ⟨old, found, owned, eventFree, ?_, rfl, ?_, rfl, rfl, rfl, rfl⟩
  · intro id
    simp only [Store.record_runs, finishedEvent, Table.lookup_update_at, updated]
    by_cases same : runId = id <;> simp [same, RunRepository.finishedWith]
  · simp only [Store.record_events, sequence]
    rfl

end WorkerCoordinator

end OpsComposer.Services
