import OpsComposer.Services.RunSpecs

/-!
# Retrying a run

`RunService.retry`, and the system in which runs are created and retried while the playbooks,
the hosts, the groups and the credentials are edited.

A retry copies the columns of the run that is retried.  Only the operation of a run with a
project is made again: the parameters that the run has stored are validated with the secrets of
the request, against the revision that the run has pinned.
-/

set_option autoImplicit false

namespace OpsComposer.RunSpecs

open Domain (Uuid RunKind RunStatus)
open Foundations Services Playbooks
open Services.PlaybookProject (JsonDict Members string?)

/-- The arguments of `retry`, and the identifier of the new run. -/
structure RetryRequest where
  runId : Uuid
  requestedBy : Uuid
  idempotencyKey : Text
  parameters : Option JsonDict := none
  newRunId : Uuid

/-- `parameters or {}`. -/
def RetryRequest.supplied (request : RetryRequest) : Members :=
  request.parameters.elim [] JsonDict.members

/-- `_playbook_source`. -/
def playbookSource (operationSpec : Members) : Except RunError PlaybookSource :=
  match operationSpec.lookup (text "playbook") with
  | some (.obj reference) =>
      match reference.lookup (text "source") with
      | some (.str source) =>
          if source = PlaybookSource.database.value then .ok .database
          else if source = PlaybookSource.mount.value then .ok .mount
          else .error (.playbookNotFound "playbook source is invalid")
      | _ => .error (.playbookNotFound "playbook source is invalid")
  | _ =>
      match operationSpec.lookup (text "playbookPath") with
      | none => .error (.playbookNotFound "playbook reference is missing")
      | some .null => .error (.playbookNotFound "playbook reference is missing")
      | some _ => .ok .mount

/-- `operation_spec.get("secretParameterNames", [])`, which has to be a list of texts. -/
def secretParameterNames (operationSpec : Members) : Except RunError (List Text) :=
  match (operationSpec.lookup (text "secretParameterNames")).getD (.arr []) with
  | .arr items => do
      require (∀ item ∈ items, (string? item).isSome)
        (.validation "source Run parameter metadata is invalid")
      return items.filterMap string?
  | _ => .error (.validation "source Run parameter metadata is invalid")

/-- `operation_spec.get("extraVars", {})`, which has to be a dict. -/
def rawPublic (operationSpec : Members) : Except RunError Members :=
  match (operationSpec.lookup (text "extraVars")).getD (.obj []) with
  | .obj members => .ok members
  | _ => .error (.validation "source Run parameters are invalid")

/-- The operation of a retry of a run with a project, and its secret parameters. -/
def retryProject (revision : PlaybookRevision) (operationSpec : Members) (secretNames : List Text)
    (supplied : Members) : Except RunError (Members × List (Text × Text)) := do
  let stored ← rawPublic operationSpec
  let missing := secretNames.dedup.filter fun name => name ∉ Json.keys supplied
  require (missing = []) (.secretParametersRequired (sortedBy id missing))
  let result ← validated revision (Json.merge stored supplied)
  require (∀ name ∈ secretNames, name ∈ Json.keys result.secretValues)
    (.secretParametersRequired (sortedBy id secretNames))
  return (recordParameters operationSpec result, result.secretValues)

/-- The operation of a retry, and its secret parameters. -/
def retryOperation (store : PlaybookStore) (source : StoredRun) (secretNames : List Text)
    (supplied : Members) : Except RunError (Members × List (Text × Text)) :=
  match source.spec.kind, source.spec.playbookId with
  | .playbook, some playbookId => do
      let revision ← orRaise (.playbookNotFound "source Playbook revision is unavailable")
        (store.revision? playbookId (source.spec.playbookRevision.getD 0))
      match revision.revisionFormat with
      | .project => retryProject revision source.spec.operationSpec secretNames supplied
      | .legacySingleYaml => do
          require (supplied = []) (.validation "legacy Playbook Retry does not accept parameters")
          return (source.spec.operationSpec, [])
  | _, _ => do
      require (supplied = []) (.validation "this Run type does not accept parameters")
      return (source.spec.operationSpec, [])

/-- The `Run(…)` that `retry` inserts. -/
def retriedRun (source : StoredRun) (request : RetryRequest) (operationSpec : Members)
    (secretInputs : List (Text × Text)) (requestFingerprint : Bytes) : StoredRun where
  runId := request.newRunId
  sourceRunId := some source.runId
  spec := { source.spec with operationSpec := operationSpec }
  targets := source.targets
  secretInputs := secretInputs
  requestedBy := request.requestedBy
  idempotencyKey := request.idempotencyKey
  requestFingerprint := requestFingerprint

/-- `get` of the run repository. -/
def findRun (runs : List StoredRun) (runId : Uuid) : Option StoredRun :=
  runs.find? fun run => run.runId = runId

/-- `retry`: the run, whether it is new, and the rows that there are then. -/
def retry (settings : RunSettings) (store : PlaybookStore) (runs : List StoredRun)
    (request : RetryRequest) (answers : Answers) :
    Except RunError (StoredRun × Bool × List StoredRun) := do
  requireKey request.idempotencyKey
  let source ← orRaise (.notFound "run not found") (findRun runs request.runId)
  require source.status.terminal (.validation "only terminal runs can be retried")
  onlyIf (source.spec.kind = .playbook) do
    requirePlaybookSource settings (← playbookSource source.spec.operationSpec)
  require (source.targets ≠ []) (.validation "source run target snapshot is invalid")
  let secretNames ← secretParameterNames source.spec.operationSpec
  let operation ← retryOperation store source secretNames request.supplied
  let requestFingerprint ← fingerprintOf settings answers
    (requestPayload source.spec.kind source.spec.targetSpec operation.1 source.spec.timeoutSeconds
      source.spec.forks (some source.runId))
    (operation.2.map fun secret => (secret.1, .str secret.2)) "secretParameters"
  persist runs (retriedRun source request operation.1 operation.2 requestFingerprint) answers

/-! ## Runs among edits -/

/-- The Playbooks and the runs that were created from them. -/
structure RunWorld where
  playbooks : PlaybookWorld
  runs : List StoredRun := []

/-- What can happen next. -/
inductive RunAct where
  | onPlaybooks (act : DbAct PlaybookCall)
  | create (call : CreateCall) (answers : Answers)
  | retry (request : RetryRequest) (answers : Answers)
  /-- Whatever the queue and a worker do to a run. -/
  | move (runId : Uuid) (status : RunStatus)

/-- A request that fails leaves the rows as they are. -/
def RunWorld.answered (world : RunWorld)
    (answer : Except RunError (StoredRun × Bool × List StoredRun)) : RunWorld :=
  match answer with
  | .ok (_, _, runs) => { world with runs := runs }
  | .error _ => world

/-- One step: of a Playbook, of a run, or a call that creates one. -/
def RunWorld.step (settings : RunSettings) (world : RunWorld) : RunAct → Option RunWorld
  | .onPlaybooks act =>
      ((playbookSystem settings.playbooks).step world.playbooks act).map fun playbooks =>
        { world with playbooks := playbooks }
  | .create call answers => some <| world.answered do
      let request ← call.request settings
      create settings world.playbooks.db.state world.runs request answers
  | .retry request answers =>
      some (world.answered (retry settings world.playbooks.db.state world.runs request answers))
  | .move runId status => some { world with
      runs := world.runs.map fun run =>
        if run.runId = runId then { run with status := status } else run }

/-- Runs among edits, from an empty database on. -/
def runSystem (settings : RunSettings) : System RunWorld RunAct where
  init world := (playbookSystem settings.playbooks).init world.playbooks ∧ world.runs = []
  step := RunWorld.step settings

end OpsComposer.RunSpecs
