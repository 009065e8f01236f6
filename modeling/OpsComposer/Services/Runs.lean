import OpsComposer.Repositories.Runs
import OpsComposer.Domain.Errors

/-!
# The run service: persisting, cancelling

The transactions of `RunService` that write the run tables on behalf of a
client.  `persist` is the part of `_create` and of `retry` from the insert of
the run on; what precedes it only reads, and ends in the `Draft` that is
inserted here.  Both callers build the run in the status `QUEUED` without a
worker, and every target in the status `PENDING`: a `Draft` has no field for
anything else.
-/

set_option autoImplicit false

namespace OpsComposer.Services

open Domain Foundations Repositories

namespace RunService

/-- One host of a run that is to be created. -/
structure TargetDraft where
  runTargetId : Uuid
  hostId : Uuid
  hostName : String
  hostAddress : String

/-- A run that is to be created, with the identifiers and readings it gets. -/
structure Draft where
  runId : Uuid
  sourceRunId : Option Uuid := none
  kind : RunKind
  targetSpec : Dict
  resolvedTargets : List Dict
  operationSpec : Dict
  inventorySnapshot : Dict
  workspaceRevision : Option String := none
  playbookId : Option Uuid := none
  playbookRevision : Option Nat := none
  credentialVersions : Dict
  timeoutSeconds : Nat
  forks : Nat
  requestedBy : Uuid
  idempotencyKey : String
  fingerprint : String
  fingerprintScheme : RequestFingerprintScheme := .legacySha256
  now : Nat
  targets : List TargetDraft
  /-- The envelope of the secret parameters, when there are any. -/
  secretInput : Option (List UInt8 × Nat × List String) := none
  /-- The id of the `run_queued` event. -/
  eventId : Uuid

namespace Draft

/-- The `Run(…)` that is inserted. -/
def run (draft : Draft) : Run where
  runId := draft.runId
  sourceRunId := draft.sourceRunId
  kind := draft.kind
  status := .queued
  targetSpec := draft.targetSpec
  resolvedTargets := draft.resolvedTargets
  operationSpec := draft.operationSpec
  inventorySnapshot := draft.inventorySnapshot
  workspaceRevision := draft.workspaceRevision
  playbookId := draft.playbookId
  playbookRevision := draft.playbookRevision
  credentialVersions := draft.credentialVersions
  timeoutSeconds := draft.timeoutSeconds
  forks := draft.forks
  requestedBy := draft.requestedBy
  idempotencyKey := draft.idempotencyKey
  requestFingerprint := draft.fingerprint
  requestFingerprintScheme := draft.fingerprintScheme
  createdAt := draft.now
  updatedAt := draft.now

/-- The `RunTarget(…)` of one host. -/
def targetRow (draft : Draft) (target : TargetDraft) : RunTarget where
  runTargetId := target.runTargetId
  runId := draft.runId
  hostId := target.hostId
  hostName := target.hostName
  hostAddress := target.hostAddress
  status := .pending

/-- The rows of the targets. -/
def targetRows (draft : Draft) : List RunTarget := draft.targets.map draft.targetRow

/-- The row of `run_secret_inputs`, when there are secret parameters. -/
def secretRow (draft : Draft) : Option RunSecretInput :=
  draft.secretInput.map fun input =>
    { runId := draft.runId
      encryptedPayload := input.1
      encryptionKeyVersion := input.2.1
      parameterNames := input.2.2
      createdAt := draft.now }

/-- The `run_queued` event. -/
def queuedEvent (draft : Draft) : RunEvent where
  runEventId := draft.eventId
  runId := draft.runId
  sequence := 1
  eventType := "run_queued"
  eventData :=
    ("hostCount", .num draft.targets.length) :: ("kind", .str draft.kind.value) ::
      match draft.sourceRunId with
      | none => []
      | some source => [("sourceRunId", .num source)]
  createdAt := draft.now

end Draft

/-- `add_secret_inputs`, when there are secret parameters. -/
def storeSecrets (store : Store) (draft : Draft) : Option Store :=
  match draft.secretRow with
  | none => some store
  | some input => RunRepository.addSecretInputs store input

/-- The audit row of a creation, a retry or a replay. -/
def creationAudit (draft : Draft) (runId : Uuid) (created : Bool) : AuditEvent where
  action :=
    if created then
      if draft.sourceRunId.isSome then .runRetryCreated else .runCreated
    else .runIdempotentReplay
  actorUserId := some draft.requestedBy
  runId := some runId

/-- Insert the run or find the one with its key; a new run also gets its targets,
its secret inputs and its first event, provided that every host key is
confirmed (`unconfirmed` are the hosts without a key). -/
def persist (store : Store) (draft : Draft) (unconfirmed : List Uuid) :
    Except OpsError ((Run × Bool) × Store) :=
  match RunRepository.createOrGet store draft.run draft.targetRows with
  | none => .error .databaseFault
  | some ((persisted, created), stored) =>
      if persisted.requestFingerprint ≠ draft.fingerprint then .error .idempotencyConflict
      else if created then
        if ∃ target ∈ draft.targets, target.hostId ∈ unconfirmed then
          .error .hostKeyConfirmationRequired
        else
          match storeSecrets stored draft with
          | none => .error .databaseFault
          | some sealed =>
              match RunRepository.appendEvent sealed draft.queuedEvent with
              | none => .error .databaseFault
              | some (_, queued) =>
                  .ok ((persisted, true), queued.record (creationAudit draft persisted.runId true))
      else .ok ((persisted, false), stored.record (creationAudit draft persisted.runId false))

/-- The secret inputs of a new run are stored under its free key. -/
inductive StoresSecrets (draft : Draft) (before after : Table RunSecretInput.runId) : Prop where
  | none (absent : draft.secretRow = .none) (same : after = before)
  | some (input : RunSecretInput) (present : draft.secretRow = .some input)
      (free : before.lookup draft.runId = .none) (added : after = before.put input)

variable {draft : Draft} {store store' : Store}

theorem storeSecrets_spec (done : storeSecrets store draft = some store') :
    StoresSecrets draft store.secretInputs store'.secretInputs ∧
      store' = { store with secretInputs := store'.secretInputs } := by
  unfold storeSecrets at done
  cases row : draft.secretRow with
  | none =>
      simp only [row, Option.some.injEq] at done
      exact ⟨.none row (by rw [done]), by rw [done]⟩
  | some input =>
      simp only [row] at done
      obtain ⟨rows, inserted, rfl⟩ := Option.map_eq_some_iff.mp done
      obtain ⟨free, rfl⟩ := Table.insert?_eq_some.mp inserted
      have ofRun : input.runId = draft.runId := by
        obtain ⟨_, _, rfl⟩ := Option.map_eq_some_iff.mp row
        rfl
      exact ⟨.some input row (ofRun ▸ free) rfl, rfl⟩

/-- What the creation of a run does to the store, in one step: the run, its
targets, its secret inputs and its first event, under keys that were free. -/
structure Creates (store : Store) (draft : Draft) (store' : Store) : Prop where
  keyFree :
    RunRepository.getByIdempotencyKey store draft.requestedBy draft.idempotencyKey = none
  runFree : store.runs.lookup draft.runId = none
  eventFree : store.events.lookup draft.eventId = none
  runs : ∀ id, store'.runs.lookup id =
    if draft.runId = id then some { draft.run with nextEventSequence := 2 }
    else store.runs.lookup id
  targets : store.targets.insertAll? draft.targetRows = some store'.targets
  secrets : StoresSecrets draft store.secretInputs store'.secretInputs
  events : store'.events = store.events.put draft.queuedEvent
  leases : store'.leases = store.leases
  locks : store'.locks = store.locks
  shells : store'.shells = store.shells
  audit : store'.audit = store.audit ++ [creationAudit draft draft.runId true]

/-- **A creation** adds the run with everything that belongs to it. -/
theorem persist_created {unconfirmed : List Uuid} {run : Run}
    (done : persist store draft unconfirmed = .ok ((run, true), store')) :
    run = draft.run ∧ (∀ target ∈ draft.targets, target.hostId ∉ unconfirmed) ∧
      Creates store draft store' := by
  unfold persist at done
  split at done
  · cases done
  · rename_i persisted created stored inserted
    split at done
    · cases done
    split at done
    · rename_i isNew
      obtain rfl : created = true := isNew
      obtain ⟨keyFree, runFree, rfl, rows, added, rfl⟩ := RunRepository.createOrGet_created inserted
      split at done
      · cases done
      rename_i confirmed
      split at done
      · cases done
      rename_i sealed sealedBy
      obtain ⟨secrets, sealedEq⟩ := storeSecrets_spec sealedBy
      split at done
      · cases done
      rename_i row queued appended
      obtain ⟨current, found, rfl, eventFree, _, rfl⟩ := RunRepository.appendEvent_spec appended
      simp only [Except.ok.injEq, Prod.mk.injEq] at done
      obtain ⟨⟨rfl, _⟩, rfl⟩ := done
      rw [sealedEq] at found eventFree
      simp only [Draft.queuedEvent] at found
      rw [Table.lookup_put, if_pos (show draft.run.runId = draft.runId from rfl)] at found
      cases found
      refine ⟨rfl, ?_, ?_⟩
      · intro target member missing
        exact confirmed ⟨target, member, missing⟩
      · rw [sealedEq]
        refine ⟨keyFree, runFree, eventFree, ?_, added, secrets, rfl, rfl, rfl, rfl, rfl⟩
        intro id
        simp only [Store.record_runs, Table.lookup_update, Table.lookup_put]
        by_cases same : draft.runId = id
        · simp [same, Draft.run, Draft.queuedEvent]
        · have apart : ¬ draft.run.runId = id := same
          have kept : ∀ r, store.runs.lookup id = some r → ¬ r.runId = draft.queuedEvent.runId := by
            intro r present equal
            exact same (equal.symm.trans (Table.key_of_lookup present))
          cases present : store.runs.lookup id with
          | none => simp [apart, same]
          | some r => simp [apart, same, kept r present]
    · simp at done

/-- **A replay** changes nothing but the audit trail. -/
theorem persist_replayed {unconfirmed : List Uuid}
    {run : Run} (done : persist store draft unconfirmed = .ok ((run, false), store')) :
    RunRepository.getByIdempotencyKey store draft.requestedBy draft.idempotencyKey = some run ∧
      run.requestFingerprint = draft.fingerprint ∧
      store' = store.record (creationAudit draft run.runId false) := by
  unfold persist at done
  split at done
  · cases done
  · rename_i persisted created stored inserted
    split at done
    · cases done
    rename_i matching
    split at done
    · split at done
      · cases done
      split at done
      · cases done
      split at done <;> simp at done
    · rename_i notNew
      obtain rfl : created = false := by simpa using notNew
      obtain ⟨found, rfl⟩ := RunRepository.createOrGet_found inserted
      simp only [Except.ok.injEq, Prod.mk.injEq, and_true] at done
      obtain ⟨rfl, rfl⟩ := done
      exact ⟨found, not_not.mp matching, rfl⟩

/-- `get`. -/
def get (store : Store) (runId : Uuid) : Except OpsError Run :=
  match RunRepository.get store runId with
  | none => .error (.notFound "run not found")
  | some run => .ok run

/-- `events_after`: the next events of a run, at most `limit` of them. -/
def eventsAfter (store : Store) (runId : Uuid) (sequence : Nat) (limit : Nat := 500) :
    Except OpsError (List RunEvent) :=
  match RunRepository.get store runId with
  | none => .error (.notFound "run not found")
  | some _ => .ok (RunRepository.eventsAfter store runId sequence limit)

/-- The `cancel_requested` event. -/
def cancelEvent (runId eventId : Uuid) (now : Nat) : RunEvent where
  runEventId := eventId
  runId := runId
  sequence := 1
  eventType := "cancel_requested"
  createdAt := now

/-- `cancel`. -/
def cancel (store : Store) (runId requestedBy eventId : Uuid) (now : Nat) :
    Except OpsError (Run × Store) :=
  match RunRepository.get store runId with
  | none => .error (.notFound "run not found")
  | some current =>
      if current.status.terminal then .error .runNotCancelable
      else
        match RunRepository.requestCancel store runId now with
        | none => .error .runNotCancelable
        | some (run, marked) =>
            match RunRepository.appendEvent marked (cancelEvent runId eventId now) with
            | none => .error .databaseFault
            | some (_, stored) =>
                .ok (run, stored.record
                  { action := .runCancelRequested
                    actorUserId := some requestedBy
                    runId := some runId })

/-- What a cancellation does to the store, in one step. -/
structure Cancels (store : Store) (runId eventId : Uuid) (now : Nat) (current : Run)
    (store' : Store) : Prop where
  found : store.runs.lookup runId = some current
  cancelable : current.status.cancelable = true
  eventFree : store.events.lookup eventId = none
  runs : ∀ id, store'.runs.lookup id =
    if runId = id then
      some { RunRepository.canceledBy now current with
        nextEventSequence := current.nextEventSequence + 1 }
    else store.runs.lookup id
  targets : store'.targets =
    if current.status = .queued then (RunRepository.cancelTargets store runId now).targets
    else store.targets
  events : store'.events = store.events.put
    { cancelEvent runId eventId now with sequence := current.nextEventSequence }
  secretInputs : store'.secretInputs = store.secretInputs
  leases : store'.leases = store.leases
  locks : store'.locks = store.locks
  shells : store'.shells = store.shells

theorem canceledBy_status {now : Nat} {run : Run} (open? : run.status.cancelable = true) :
    (RunRepository.canceledBy now run).status = .canceled ↔ run.status = .queued := by
  cases status : run.status <;> simp_all [RunRepository.canceledBy, RunStatus.cancelable]

theorem cancel_spec {runId requestedBy eventId : Uuid} {now : Nat} {run : Run}
    (done : cancel store runId requestedBy eventId now = .ok (run, store')) :
    ∃ current, Cancels store runId eventId now current store' := by
  unfold cancel at done
  split at done
  · cases done
  split at done
  · cases done
  split at done
  · cases done
  rename_i row marked requested
  split at done
  · cases done
  rename_i event stored appended
  obtain ⟨current, found, cancelable, rfl, markedEq⟩ := RunRepository.requestCancel_spec requested
  obtain ⟨numbered, present, rfl, eventFree, _, rfl⟩ := RunRepository.appendEvent_spec appended
  simp only [Except.ok.injEq, Prod.mk.injEq] at done
  obtain ⟨_, rfl⟩ := done
  have markedRuns : marked.runs =
      store.runs.update (fun r => r.runId = runId) (RunRepository.canceledBy now)
        (RunRepository.canceledBy_runId now) := by
    rw [markedEq]
    split <;> rfl
  have frame : marked.events = store.events ∧ marked.secretInputs = store.secretInputs ∧
      marked.leases = store.leases ∧ marked.locks = store.locks ∧
      marked.shells = store.shells := by
    rw [markedEq]
    split <;> exact ⟨rfl, rfl, rfl, rfl, rfl⟩
  obtain ⟨events, secrets, leases, locks, shells⟩ := frame
  have markedTargets : marked.targets =
      if current.status = .queued then (RunRepository.cancelTargets store runId now).targets
      else store.targets := by
    by_cases queued : current.status = .queued
    · rw [markedEq, if_pos ((canceledBy_status cancelable).mpr queued), if_pos queued]
      rfl
    · rw [markedEq, if_neg (mt (canceledBy_status cancelable).mp queued), if_neg queued]
  have sequence : numbered = RunRepository.canceledBy now current := by
    rw [markedRuns] at present
    simp only [cancelEvent, Table.lookup_update_at, if_true, found, Option.map_some,
      Option.some.injEq] at present
    exact present.symm
  refine ⟨current, found, cancelable, events ▸ eventFree, ?_, markedTargets, ?_, secrets, leases,
    locks, shells⟩
  · intro id
    simp only [Store.record_runs, markedRuns, cancelEvent, Table.lookup_update_at]
    by_cases same : runId = id
    · subst same
      simp [found, RunRepository.canceledBy]
    · simp [same]
  · simp [events, sequence, RunRepository.canceledBy]

/-! ## Consuming secret inputs -/

/-- `{key: str(value)}`, when every value is a text. -/
def texts? : Dict → Option (List (String × String))
  | [] => some []
  | (name, .str text) :: rest => (texts? rest).map fun tail => (name, text) :: tail
  | _ :: _ => none

/-- `set(values) == set(names)` for the keys of a dictionary. -/
abbrev SameNames (values : Dict) (names : List String) : Prop :=
  (∀ entry ∈ values, entry.1 ∈ names) ∧ ∀ name ∈ names, ∃ entry ∈ values, entry.1 = name

/-- Delete the envelope, open it and hand out its values, in one transaction:
whatever is wrong with the row, the envelope or the values raises, and the row
stays.  `decryptJson` opens the envelope of a run under a key version. -/
def consumeSecretInputs (decryptJson : Uuid → List UInt8 → Nat → Option Dict) (store : Store)
    (runId : Uuid) (expectedNames : List String) :
    Except Raised (List (String × String) × Store) :=
  if expectedNames = [] then .ok ([], store)
  else
    match RunRepository.consumeSecretInputs store runId with
    | none => .error (.secretParametersRequired expectedNames)
    | some (record, consumed) =>
        if record.parameterNames.insertionSort (· ≤ ·) ≠
            expectedNames.insertionSort (· ≤ ·) then
          .error .exception
        else
          match decryptJson runId record.encryptedPayload record.encryptionKeyVersion with
          | none => .error .valueError
          | some values =>
              if SameNames values expectedNames then
                match texts? values with
                | none => .error .exception
                | some texts =>
                    .ok (texts, consumed.record
                      { action := .runSecretInputConsumed, runId := some runId })
              else .error .exception

end RunService

end OpsComposer.Services
