import OpsComposer.Foundations.JsonDicts
import OpsComposer.Projects.ParameterContract
import OpsComposer.Services.Playbooks

/-!
# What a run specifies

`RunService._create` and `RunService.retry`: how the specification of a run comes about, from a
request, or from the run that is retried.

A unit of work is one step here.  The playbooks are those of `PlaybookService`, with all the
concurrency of their own units of work.  Hosts, groups, credentials and host keys are edited
freely: what the queries on them find is given with each request (`Answers`).  Of what happens
to a run later only its status is kept.

The audit and the run events, the permission checks and the encryption of the secret parameters
are left out.  A dict is the list of its members (`PlaybookProject.Members`); what a `jsonb`
column has taken it gives back.
-/

set_option autoImplicit false

namespace OpsComposer.RunSpecs

open Domain (Uuid RunKind RunStatus)
open Foundations Services Playbooks
open Services.PlaybookProject (JsonDict Members ParameterError ValidatedParameters
  validateParameters string?)

/-! ## Texts -/

/-- `str(uuid)`. -/
def uuidText (id : Uuid) : Text :=
  let digits := (List.range 32).map fun i => Json.hexDigit (id / 16 ^ (31 - i) % 16)
  Text.join 45 [digits.take 8, (digits.drop 8).take 4, (digits.drop 12).take 4,
    (digits.drop 16).take 4, digits.drop 20]

/-- `digest.hexdigest()`. -/
def hexdigest (digest : Bytes) : Text :=
  digest.flatMap fun byte => [Json.hexDigit (byte.toNat / 16), Json.hexDigit (byte.toNat % 16)]

/-- A list of texts as JSON. -/
def texts (names : List Text) : Json := .arr (names.map Json.str)

/-! ## Errors -/

/-- Where a Playbook is kept. -/
inductive PlaybookSource where
  | database
  | mount
  deriving DecidableEq

/-- The value of the enumeration. -/
def PlaybookSource.value : PlaybookSource → Text
  | .database => text "DATABASE"
  | .mount => text "MOUNT"

/-- The exceptions that the operations raise. -/
inductive RunError where
  /-- `ValidationError`. -/
  | validation (message : String)
  /-- The `ValidationError` of `_validate_extra_vars`, with the field that it names. -/
  | refusedExtraVar (field : Text)
  /-- What `validate_parameters` raises. -/
  | parameters (error : ParameterError)
  | notFound (message : String)
  | playbookNotFound (message : String)
  | playbookDisabled
  | playbookSourceDisabled (source : PlaybookSource)
  | secretParametersRequired (fields : List Text)
  | hostKeyConfirmationRequired (hosts : List (Uuid × Text))
  | idempotencyConflict
  /-- Any exception that is no `OpsError`. -/
  | fault

/-- The check raises the error unless the condition holds. -/
def require (condition : Prop) [Decidable condition] (error : RunError) : Except RunError Unit :=
  if condition then .ok () else .error error

/-- `if condition: action`. -/
def onlyIf (condition : Prop) [Decidable condition] (action : Except RunError Unit) :
    Except RunError Unit :=
  if condition then action else .ok ()

/-- The value, or the error where there is none. -/
def orRaise {α : Type} (error : RunError) : Option α → Except RunError α
  | some value => .ok value
  | none => .error error

/-! ## Hosts -/

/-- `ResolvedHost`. -/
structure ResolvedHost where
  hostId : Uuid
  name : Text
  address : Text
  sshPort : Nat
  credentialId : Uuid
  credentialVersion : Nat
  credentialUsername : Text
  credentialPublicConfig : Members := []
  pythonInterpreter : Option Text := none
  hostVariables : Members := []
  groupVariables : Members := []

/-- `host.python_interpreter or "/usr/bin/python3"`. -/
def ResolvedHost.interpreter (host : ResolvedHost) : Text :=
  match host.pythonInterpreter with
  | some (c :: path) => c :: path
  | _ => text "/usr/bin/python3"

/-- The variables of a host in the inventory. -/
def ResolvedHost.variables (host : ResolvedHost) : Members :=
  let plain := Json.merge (Json.merge host.groupVariables host.hostVariables)
    [(text "ansible_host", .str host.address), (text "ansible_port", .int host.sshPort),
      (text "ansible_user", .str host.credentialUsername),
      (text "ansible_python_interpreter", .str host.interpreter)]
  if (host.credentialPublicConfig.lookup (text "becomeEnabled")).any Json.truthy then
    Json.merge plain
      [(text "ansible_become", .bool true),
        (text "ansible_become_method",
          (host.credentialPublicConfig.lookup (text "becomeMethod")).getD (.str (text "sudo"))),
        (text "ansible_become_user",
          (host.credentialPublicConfig.lookup (text "becomeUser")).getD (.str (text "root")))]
  else plain

/-- `build_inventory(hosts)`. -/
def buildInventory (hosts : List ResolvedHost) : Members :=
  [(text "all", .obj [(text "hosts",
    .obj (Json.merge [] (hosts.map fun host => (host.name, .obj host.variables))))])]

/-- The entry of a host in `resolved_targets`. -/
def ResolvedHost.target (host : ResolvedHost) : Members :=
  [(text "hostId", .str (uuidText host.hostId)), (text "name", .str host.name),
    (text "address", .str host.address), (text "sshPort", .int host.sshPort),
    (text "credentialId", .str (uuidText host.credentialId)),
    (text "credentialVersion", .int host.credentialVersion)]

/-- `credential_versions` of a specification: the last host of a credential decides. -/
def credentialVersions (hosts : List ResolvedHost) : Members :=
  Json.merge [] (hosts.map fun host => (uuidText host.credentialId, .int host.credentialVersion))

/-! ## Rows -/

/-- The columns of a run that say what is to be done. -/
structure RunSpec where
  kind : RunKind
  targetSpec : Members
  resolvedTargets : List Members
  operationSpec : Members
  inventorySnapshot : Members
  workspaceRevision : Option Text := none
  playbookId : Option Uuid := none
  playbookRevision : Option Nat := none
  credentialVersions : Members
  timeoutSeconds : Int
  forks : Int

/-- The columns of `run_targets` that say which host it is. -/
structure StoredTarget where
  hostId : Uuid
  hostName : Text
  hostAddress : Text

/-- A row of `runs`, with its rows of `run_targets` and with what its row of
`run_secret_inputs` opens to. -/
structure StoredRun where
  runId : Uuid
  sourceRunId : Option Uuid := none
  status : RunStatus := .queued
  spec : RunSpec
  targets : List StoredTarget
  secretInputs : List (Text × Text) := []
  requestedBy : Uuid
  idempotencyKey : Text
  requestFingerprint : Bytes

/-- What the queries on the other tables find. -/
structure Answers where
  /-- The query for the group. -/
  groupExists : Bool := true
  /-- The query of `_resolve` for the hosts. -/
  hosts : List ResolvedHost := []
  /-- The hosts that have a key. -/
  confirmed : Uuid → Bool := fun _ => true
  /-- The pepper of the fingerprints. -/
  pepper : Option Bytes := none

/-- The settings of the service and the functions that it is given. -/
structure RunSettings where
  databaseEnabled : Bool := true
  mountEnabled : Bool := true
  sha256 : Bytes → Bytes
  hmac : Bytes → Bytes → Bytes
  playbooks : PlaybookSettings

/-! ## Targets -/

/-- What a run is aimed at. -/
inductive TargetKind where
  | all
  | hosts
  | group
  deriving DecidableEq

/-- The value of the enumeration. -/
def TargetKind.value : TargetKind → Text
  | .all => text "ALL"
  | .hosts => text "HOSTS"
  | .group => text "GROUP"

/-- The target of a request. -/
structure TargetRequest where
  kind : TargetKind
  hostIds : List Uuid := []
  groupId : Option Uuid := none

/-- The specification of a target, as it is fingerprinted and stored. -/
def TargetRequest.spec (target : TargetRequest) : Members :=
  [(text "kind", .str target.kind.value),
    (text "hostIds", texts (target.hostIds.map uuidText)),
    (text "groupId", (target.groupId.map fun id => Json.str (uuidText id)).getD .null)]

/-- `_resolve`. -/
def resolve (target : TargetRequest) (answers : Answers) : Except RunError (List ResolvedHost) := do
  match target.kind with
  | .all => pure ()
  | .hosts => do
      require (target.hostIds ≠ []) (.validation "at least one host is required")
      require (answers.hosts.length = target.hostIds.dedup.length)
        (.validation "one or more hosts are missing, disabled, or unusable")
  | .group => do
      require target.groupId.isSome (.validation "groupId is required for a group target")
      require answers.groupExists (.notFound "group not found")
  require (answers.hosts ≠ []) (.validation "target resolves to no enabled hosts")
  return answers.hosts

/-- `_require_confirmed_host_keys`. -/
def requireConfirmedHostKeys (answers : Answers) (hosts : List (Uuid × Text)) :
    Except RunError Unit :=
  let missing := ((hosts.map Prod.fst).eraseDups.filter fun id => !answers.confirmed id)
  require (missing = []) <| .hostKeyConfirmationRequired <|
    missing.map fun id => (id, (hosts.reverse.lookup id).getD [])

/-! ## Persisting -/

/-- `_fingerprint` and, with a pepper, `_hmac_fingerprint`.  What JSON cannot write fails here;
a `jsonb` column would not take it either. -/
def fingerprint (settings : RunSettings) (payload : Members) (pepper : Option Bytes) :
    Except RunError Bytes := do
  let written ← orRaise .fault (Json.dumpsUnicode (.obj payload))
  let encoded ← orRaise .fault written.encode
  return match pepper with
    | none => settings.sha256 encoded
    | some pepper => settings.hmac pepper encoded

/-- The fingerprint with the pepper, if there is something secret in the payload. -/
def fingerprintOf (settings : RunSettings) (answers : Answers) (payload : Members)
    (hidden : Members) (key : String) : Except RunError Bytes :=
  match hidden with
  | [] => fingerprint settings payload none
  | member :: members => do
      let pepper ← orRaise .fault answers.pepper
      fingerprint settings (payload ++ [(text key, .obj (member :: members))]) (some pepper)

/-- What the fingerprint of a request is computed from. -/
def requestPayload (kind : RunKind) (targetSpec operationSpec : Members)
    (timeoutSeconds forks : Int) (sourceRunId : Option Uuid) : Members :=
  [(text "kind", .str (text kind.value)), (text "target", .obj targetSpec),
    (text "operation", .obj operationSpec), (text "timeoutSeconds", .int timeoutSeconds),
    (text "forks", .int forks),
    (text "sourceRunId", (sourceRunId.map fun id => Json.str (uuidText id)).getD .null)]

/-- `get_by_idempotency_key`. -/
def byIdempotencyKey (runs : List StoredRun) (requestedBy : Uuid) (key : Text) :
    Option StoredRun :=
  runs.find? fun run => run.requestedBy = requestedBy ∧ run.idempotencyKey = key

/-- `create_or_get`: the row, whether it is new, and the rows that there are then. -/
def createOrGet (runs : List StoredRun) (run : StoredRun) :
    Except RunError (StoredRun × Bool × List StoredRun) :=
  match byIdempotencyKey runs run.requestedBy run.idempotencyKey with
  | some existing => .ok (existing, false, runs)
  | none => do
      require (∀ other ∈ runs, other.runId ≠ run.runId) .fault
      return (run, true, runs ++ [run])

/-- The insert of a run and what follows it. -/
def persist (runs : List StoredRun) (run : StoredRun) (answers : Answers) :
    Except RunError (StoredRun × Bool × List StoredRun) := do
  let stored ← createOrGet runs run
  require (stored.1.requestFingerprint = run.requestFingerprint) .idempotencyConflict
  onlyIf stored.2.1 <| requireConfirmedHostKeys answers <|
    run.targets.map fun target => (target.hostId, target.hostName)
  return stored

/-- `if not 8 <= len(idempotency_key) <= 200`. -/
def requireKey (key : Text) : Except RunError Unit :=
  require (8 ≤ key.length ∧ key.length ≤ 200)
    (.validation "Idempotency-Key must contain 8-200 characters")

/-! ## Parameters -/

/-- The tokens that no variable may have in its name. -/
def secretTokens : List Text :=
  ["password", "passwd", "secret", "token", "private_key", "passphrase"].map text

/-- A name that is kept for secrets and for the connection. -/
def isRefusedName (name : Text) : Bool :=
  let normalized := Text.replaceChar 45 95 name.casefold
  decide (text "ansible_" <+: normalized) || secretTokens.any fun token =>
    decide (token <:+: normalized)

mutual

/-- The field for which `_validate_extra_vars(value, path)` fails. -/
def refusedField (path : Text) : Json → Option Text
  | .obj members => refusedMember path members
  | .arr items => refusedItem path 0 items
  | _ => none

/-- The same for the members of an object, in their order. -/
def refusedMember (path : Text) : List (Text × Json) → Option Text
  | [] => none
  | (name, value) :: members =>
      if isRefusedName name then some (path ++ 46 :: name)
      else (refusedField (path ++ 46 :: name) value).or (refusedMember path members)

/-- The same for the items of a list, from this index on. -/
def refusedItem (path : Text) (index : Nat) : List Json → Option Text
  | [] => none
  | item :: items =>
      (refusedField (path ++ 91 :: Json.natText index ++ [93]) item).or
        (refusedItem path (index + 1) items)

end

/-- `_validate_extra_vars(values)`. -/
def validateExtraVars (values : Members) : Except RunError Unit :=
  match refusedField (text "extraVars") (.obj values) with
  | none => .ok ()
  | some field => .error (.refusedExtraVar field)

/-- `dict(row["parameter_schema"])`; an object of a `jsonb` column has every key once. -/
def schemaDict (schema : Json) : Except RunError JsonDict :=
  match schema with
  | .obj members =>
      if keyed : Json.Keyed (.obj members) then .ok ⟨members, keyed⟩ else .error .fault
  | _ => .error .fault

/-- `validate_parameters(revision.parameter_schema, supplied)`. -/
def validated (revision : PlaybookRevision) (supplied : Members) :
    Except RunError ValidatedParameters := do
  let schema ← schemaDict revision.parameterSchema
  match validateParameters schema.members supplied with
  | .ok result => .ok result
  | .error error => .error (.parameters error)

/-- The members that a validation leaves in the specification of the operation. -/
def recordParameters (operationSpec : Members) (result : ValidatedParameters) : Members :=
  let withPublic := Json.set operationSpec (text "extraVars") (.obj result.publicValues)
  let withNames := Json.set withPublic (text "parameterNames") (texts result.suppliedNames)
  Json.set withNames (text "secretParameterNames")
    (texts (sortedBy id (Json.keys result.secretValues)))

/-! ## Creation -/

/-- The arguments of `_create`. -/
structure CreateRequest where
  runId : Uuid
  requestedBy : Uuid
  idempotencyKey : Text
  kind : RunKind
  target : TargetRequest
  operationSpec : Members
  timeoutSeconds : Int
  forks : Int
  workspaceRevision : Option Text := none
  databasePlaybookId : Option Uuid := none
  playbookParameters : Members := []

/-- The operation of a run as it is stored, the columns that name the revision of its playbook,
and its secret parameters. -/
structure ResolvedOperation where
  operationSpec : Members
  workspaceRevision : Option Text
  playbookRevision : Option Nat := none
  secretInputs : List (Text × Text) := []

/-- `get_document`: a playbook with its current revision. -/
def document? (store : PlaybookStore) (playbookId : Uuid) :
    Option (DatabasePlaybook × PlaybookRevision) := do
  let playbook ← store.playbook? playbookId
  if playbook.deletedAt = none then
    (currentRevision? store playbook).map fun revision => (playbook, revision)
  else none

/-- `raw_reference["revision"] = …` and `raw_reference["sha256"] = …`. -/
def pinRevision (operationSpec : Members) (revision : PlaybookRevision) :
    Except RunError Members :=
  match operationSpec.lookup (text "playbook") with
  | some (.obj reference) => .ok <| Json.set operationSpec (text "playbook") <| .obj <|
      Json.merge reference [(text "revision", .int revision.revision),
        (text "sha256", .str (hexdigest revision.sha256))]
  | _ => .error (.playbookNotFound "playbook not found")

/-- The check mode of a stored operation. -/
def checkModeOf (operationSpec : Members) : Bool :=
  (operationSpec.lookup (text "checkMode")).any Json.truthy

/-- The part of `_create` that pins the revision of a playbook of the database and resolves the
parameters. -/
def resolveOperation (store : PlaybookStore) (request : CreateRequest) :
    Except RunError ResolvedOperation :=
  match request.databasePlaybookId with
  | none => .ok ⟨request.operationSpec, request.workspaceRevision, none, []⟩
  | some playbookId => do
      let document ← orRaise (.playbookNotFound "playbook not found")
        (document? store playbookId)
      require document.1.enabled .playbookDisabled
      let revision := document.2
      let pinned ← pinRevision request.operationSpec revision
      match revision.revisionFormat with
      | .project => do
          let result ← validated revision request.playbookParameters
          require (checkModeOf pinned → revision.supportsCheckMode)
            (.validation "Playbook revision does not declare Check Mode support")
          return ⟨recordParameters pinned result, some (hexdigest revision.sha256),
            some revision.revision, result.secretValues⟩
      | .legacySingleYaml => do
          require (¬ checkModeOf pinned)
            (.validation "legacy Playbook revisions do not support Check Mode")
          validateExtraVars request.playbookParameters
          return ⟨Json.set pinned (text "extraVars") (.obj request.playbookParameters),
            some (hexdigest revision.sha256), some revision.revision, []⟩

/-- The `Run(…)` that `_create` inserts. -/
def newRun (request : CreateRequest) (hosts : List ResolvedHost) (operation : ResolvedOperation)
    (requestFingerprint : Bytes) : StoredRun where
  runId := request.runId
  spec :=
    { kind := request.kind
      targetSpec := request.target.spec
      resolvedTargets := hosts.map ResolvedHost.target
      operationSpec := operation.operationSpec
      inventorySnapshot := buildInventory hosts
      workspaceRevision := operation.workspaceRevision
      playbookId := request.databasePlaybookId
      playbookRevision := operation.playbookRevision
      credentialVersions := credentialVersions hosts
      timeoutSeconds := request.timeoutSeconds
      forks := request.forks }
  targets := hosts.map fun host => ⟨host.hostId, host.name, host.address⟩
  secretInputs := operation.secretInputs
  requestedBy := request.requestedBy
  idempotencyKey := request.idempotencyKey
  requestFingerprint := requestFingerprint

variable (settings : RunSettings)

/-- `_create`: the run, whether it is new, and the rows that there are then. -/
def create (store : PlaybookStore) (runs : List StoredRun)
    (request : CreateRequest) (answers : Answers) :
    Except RunError (StoredRun × Bool × List StoredRun) := do
  requireKey request.idempotencyKey
  let requestFingerprint ← fingerprintOf settings answers
    (requestPayload request.kind request.target.spec request.operationSpec request.timeoutSeconds
      request.forks none)
    request.playbookParameters "parameters"
  match byIdempotencyKey runs request.requestedBy request.idempotencyKey with
  | some existing => do
      require (existing.requestFingerprint = requestFingerprint) .idempotencyConflict
      return (existing, false, runs)
  | none => do
      let hosts ← resolve request.target answers
      let operation ← resolveOperation store request
      persist runs (newRun request hosts operation requestFingerprint) answers

/-! ## The kinds of runs -/

/-- The two modes of an ad-hoc command. -/
inductive CommandMode where
  | command
  | shell
  deriving DecidableEq

/-- The value of the enumeration. -/
def CommandMode.value : CommandMode → Text
  | .command => text "COMMAND"
  | .shell => text "SHELL"

/-- A reference to a playbook, with what the catalog knows of a mounted one: its path and its
digest. -/
inductive PlaybookReference where
  | database (playbookId : Uuid)
  | mount (found : Option (Text × Text))

/-- The source of a reference. -/
def PlaybookReference.source : PlaybookReference → PlaybookSource
  | .database _ => .database
  | .mount _ => .mount

/-- The source is enabled. -/
def RunSettings.enabled : PlaybookSource → Bool
  | .database => settings.databaseEnabled
  | .mount => settings.mountEnabled

/-- `_require_playbook_source`. -/
def requirePlaybookSource (source : PlaybookSource) :
    Except RunError Unit :=
  require (settings.enabled source) (.playbookSourceDisabled source)

/-- What the requests for a run have in common. -/
structure RunRequest where
  runId : Uuid
  requestedBy : Uuid
  idempotencyKey : Text
  target : TargetRequest
  timeoutSeconds : Int
  forks : Int

/-- The arguments of `_create`, for an operation. -/
def RunRequest.withOperation (request : RunRequest) (kind : RunKind) (operationSpec : Members) :
    CreateRequest where
  runId := request.runId
  requestedBy := request.requestedBy
  idempotencyKey := request.idempotencyKey
  kind := kind
  target := request.target
  operationSpec := operationSpec
  timeoutSeconds := request.timeoutSeconds
  forks := request.forks

/-- The limits of the timeout and the forks, with this longest timeout. -/
def requireLimits (request : RunRequest) (longest : Int) : Except RunError Unit :=
  require (1 ≤ request.timeoutSeconds ∧ request.timeoutSeconds ≤ longest ∧
      1 ≤ request.forks ∧ request.forks ≤ 20)
    (.validation "timeout or forks is outside the supported range")

/-- `create_command`, up to `_create`. -/
def commandRequest (request : RunRequest) (mode : CommandMode) (command become : Text)
    (shellConfirmed : Bool) : Except RunError CreateRequest := do
  require (command ≠ [] ∧ command.length ≤ 4096 ∧ 0 ∉ command)
    (.validation "command must contain 1-4096 characters and no NUL byte")
  require (mode = .shell → shellConfirmed)
    (.validation "Shell mode requires explicit confirmation")
  require (become ∈ ["CREDENTIAL_DEFAULT", "ENABLED", "DISABLED"].map text)
    (.validation "invalid privilege escalation selection")
  requireLimits request 900
  return request.withOperation .command
    [(text "mode", .str mode.value), (text "command", .str command), (text "become", .str become)]

/-- `create_ping`, up to `_create`. -/
def pingRequest (request : RunRequest) (hostId : Uuid) : CreateRequest :=
  { request with
    target := ⟨.hosts, [hostId], none⟩
    forks := 1 }
    |>.withOperation .ping [(text "module", .str (text "ansible.builtin.ping"))]

/-- `create_playbook`, up to `_create`. -/
def playbookRequest (request : RunRequest) (playbook : PlaybookReference)
    (supplied : Members) (checkMode : Bool) (tags skipTags : List Text) :
    Except RunError CreateRequest := do
  requireLimits request 86400
  requirePlaybookSource settings playbook.source
  let operation (reference : Members) : Members :=
    [(text "playbook", .obj reference), (text "tags", texts tags),
      (text "skipTags", texts skipTags), (text "checkMode", .bool checkMode)]
  match playbook with
  | .database playbookId =>
      return { request.withOperation .playbook (operation
          [(text "source", .str PlaybookSource.database.value),
            (text "playbookId", .str (uuidText playbookId))]) with
        databasePlaybookId := some playbookId
        playbookParameters := supplied }
  | .mount found => do
      let mounted ← orRaise (.playbookNotFound "playbook not found") found
      require (¬ checkMode) (.validation "mounted Playbooks do not declare Check Mode support")
      validateExtraVars supplied
      return { request.withOperation .playbook (operation
          [(text "source", .str PlaybookSource.mount.value), (text "path", .str mounted.1)] ++
          [(text "extraVars", .obj supplied), (text "playbookPath", .str mounted.1)]) with
        workspaceRevision := some mounted.2 }

/-- The three calls that create a run. -/
inductive CreateCall where
  | command (request : RunRequest) (mode : CommandMode) (commandLine become : Text)
      (shellConfirmed : Bool)
  | ping (request : RunRequest) (hostId : Uuid)
  | playbook (request : RunRequest) (reference : PlaybookReference) (supplied : JsonDict)
      (checkMode : Bool) (tags skipTags : List Text)

/-- What a call asks to be created, or the error that it raises before that. -/
def CreateCall.request (settings : RunSettings) : CreateCall → Except RunError CreateRequest
  | .command request mode commandLine become shellConfirmed =>
      commandRequest request mode commandLine become shellConfirmed
  | .ping request hostId => .ok (pingRequest request hostId)
  | .playbook request reference supplied checkMode tags skipTags =>
      playbookRequest settings request reference supplied.members checkMode tags skipTags

end OpsComposer.RunSpecs
